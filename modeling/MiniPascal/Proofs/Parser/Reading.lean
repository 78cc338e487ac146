import MiniPascal.Parser.Basic
import MiniPascal.Proofs.Grammar

/-!
# Reading words

What a procedure of the parser reads, said in terms of the grammar. `Parser.Passes` is how
a parser moves past tokens, and `Parsing.Reads` is the contract of a procedure with a
language: when it succeeds it has moved past a word of the language, and when it finds a
fault of syntax it has moved past the beginning of one.

A sequence of procedures reads the product of their languages (`Reads.bind`) and a loop
the star of its step's (`Reads.whileLooking`), so the contract of a procedure follows its
text. That a loop goes on as long as it should needs in addition that its step moves on:
see `whileLooking_run`.
-/

namespace MiniPascal

/-! ### Streams -/

/-- The tokens of a stream, up to its end or its first failure. -/
def Scan.tokens : List Scan → List Token
  | ⟨.ok (some token), _⟩ :: scans => token :: tokens scans
  | _ => []

/-- The failure that ends the tokens of a stream, if one does. -/
def Scan.failure? : List Scan → Option ScanFailure
  | ⟨.ok (some _), _⟩ :: scans => failure? scans
  | ⟨.error failure, _⟩ :: _ => some failure
  | _ => none

theorem Tokenization.rows_ofScans (lexer : Lexer) (scans : List Scan) :
    (ofScans lexer scans).rows.map Prod.snd = Scan.tokens scans := by
  induction scans generalizing lexer with
  | nil => rfl
  | cons scan scans ih =>
    obtain ⟨_ | _ | token, after⟩ := scan
    · rfl
    · rfl
    · exact congrArg (token :: ·) (ih after)

theorem Tokenization.failure_ofScans (lexer : Lexer) (scans : List Scan) :
    (ofScans lexer scans).failure = Scan.failure? scans := by
  induction scans generalizing lexer with
  | nil => rfl
  | cons scan scans ih =>
    obtain ⟨_ | _ | token, after⟩ := scan
    · rfl
    · rfl
    · exact ih after

/-- The token that an event reports, if it reports one. -/
def Event.token? : Event → Option Token
  | .scanned _ token => token
  | _ => none

/-- The tokens that a log reports. -/
def scannedTokens (log : List Event) : List Token :=
  log.filterMap Event.token?

namespace Parser

/-- The tokens before a parser: the one it looks at and those still to be scanned. -/
def ahead (s : Parser) : List Token :=
  match s.look with
  | none => []
  | some token => token :: Scan.tokens s.pending

/-- The failure that ends the tokens before a parser, if one does. -/
def failure? (s : Parser) : Option ScanFailure :=
  match s.look with
  | none => none
  | some _ => Scan.failure? s.pending

/-- The tokens that a parser has scanned. -/
def scanned (s : Parser) : List Token :=
  scannedTokens s.log.toList

theorem head?_ahead (s : Parser) : s.ahead.head? = s.look := by
  rw [ahead]
  cases s.look <;> rfl

theorem ahead_of_look {s : Parser} {token : Token} (h : s.look = some token) :
    s.ahead = token :: Scan.tokens s.pending := by
  rw [ahead, h]

/-- From `s`, moving past the tokens `u` leads to `s'`. -/
structure Passes (s : Parser) (u : List Token) (s' : Parser) : Prop where
  ahead : s.ahead = u ++ s'.ahead
  failure : s.failure? = s'.failure?
  scanned : ∃ new, s'.scanned = s.scanned ++ new ∧ s.look.toList ++ new = u ++ s'.look.toList
  pulled : s.pending.length ≤ s'.pending.length + u.length

namespace Passes

/-- What leaves the tokens before the parser alone passes none. -/
theorem of_same {s s' : Parser} (hpending : s'.pending = s.pending) (hlook : s'.look = s.look)
    (hlog : s'.scanned = s.scanned) : s.Passes [] s' where
  ahead := by rw [List.nil_append, Parser.ahead, Parser.ahead, hpending, hlook]
  failure := by rw [Parser.failure?, Parser.failure?, hpending, hlook]
  scanned := ⟨[], by rw [hlog, List.append_nil], by rw [hlook, List.append_nil, List.nil_append]⟩
  pulled := by rw [hpending, List.length_nil, Nat.add_zero]

theorem refl (s : Parser) : s.Passes [] s :=
  of_same rfl rfl rfl

theorem trans {s s' s'' : Parser} {u v : List Token} (h : s.Passes u s') (h' : s'.Passes v s'') :
    s.Passes (u ++ v) s'' where
  ahead := by rw [h.ahead, h'.ahead, List.append_assoc]
  failure := h.failure.trans h'.failure
  scanned := by
    obtain ⟨new, hnew, hu⟩ := h.scanned
    obtain ⟨new', hnew', hv⟩ := h'.scanned
    refine ⟨new ++ new', by rw [hnew', hnew, List.append_assoc], ?_⟩
    rw [← List.append_assoc, hu, List.append_assoc, hv, List.append_assoc]
  pulled := by
    have hs := h.pulled
    have hs' := h'.pulled
    rw [List.length_append]
    omega

end Passes

/-- From `s`, moving past at least `n` tokens leads to `t`. -/
def PassesAtLeast (n : Nat) (s t : Parser) : Prop :=
  ∃ u, s.Passes u t ∧ n ≤ u.length

namespace PassesAtLeast

variable {n k : Nat} {s t t' : Parser}

theorem refl (s : Parser) : s.PassesAtLeast 0 s :=
  ⟨[], .refl s, Nat.le_refl 0⟩

theorem trans (h : s.PassesAtLeast n t) (h' : t.PassesAtLeast k t') :
    s.PassesAtLeast (n + k) t' := by
  obtain ⟨u, hu, hn⟩ := h
  obtain ⟨v, hv, hk⟩ := h'
  exact ⟨u ++ v, hu.trans hv, by rw [List.length_append]; exact Nat.add_le_add hn hk⟩

theorem mono (h : s.PassesAtLeast n t) (hle : k ≤ n) : s.PassesAtLeast k t := by
  obtain ⟨u, hu, hn⟩ := h
  exact ⟨u, hu, hle.trans hn⟩

/-- The tokens that are passed are no longer ahead. -/
theorem length_le (h : s.PassesAtLeast n t) : t.ahead.length + n ≤ s.ahead.length := by
  obtain ⟨u, hu, hn⟩ := h
  rw [hu.ahead, List.length_append]
  omega

end PassesAtLeast

end Parser

namespace Parsing

open Computability

variable {α β : Type}

/-! ### Runs -/

/-- The result of a run. -/
abbrev Result (α : Type) := EStateM.Result Interrupt Parser α

/-- Procedures are the same if all their runs are. -/
theorem eq_of_run_eq {m m' : Parsing α} (h : ∀ s, m.run s = m'.run s) : m = m' :=
  funext h

/-- Goes on from a result. -/
def Result.bind (r : Result α) (f : α → Parsing β) : Result β :=
  match r with
  | .ok a s => (f a).run s
  | .error e s => .error e s

theorem run_bind (m : Parsing α) (f : α → Parsing β) (s : Parser) :
    (m >>= f).run s = Result.bind (m.run s) f := by
  rw [EStateM.run_bind]
  cases m.run s <;> rfl

theorem bind_ok (a : α) (s : Parser) (f : α → Parsing β) :
    Result.bind (.ok a s) f = (f a).run s := rfl

theorem bind_error (e : Interrupt) (s : Parser) (f : α → Parsing β) :
    Result.bind (.error e s) f = .error e s := rfl

/-- A run of two procedures that succeeds goes through a state between them. -/
theorem exists_of_run_bind {m : Parsing α} {f : α → Parsing β} {b : β} {s s' : Parser}
    (h : (m >>= f).run s = .ok b s') :
    ∃ a s₁, m.run s = .ok a s₁ ∧ (f a).run s₁ = .ok b s' := by
  rw [run_bind] at h
  cases hm : m.run s with
  | ok a s₁ =>
    rw [hm, bind_ok] at h
    exact ⟨a, s₁, rfl, h⟩
  | error e s₁ =>
    rw [hm, bind_error] at h
    cases h

theorem run_lookKind? (s : Parser) : lookKind?.run s = .ok (s.look.map Token.kind) s := rfl

theorem run_looking (p : Kind → Bool) (s : Parser) :
    (looking p).run s = .ok ((s.look.map Token.kind).any p) s := rfl

theorem looking_iff {p : Kind → Bool} {s : Parser} :
    (s.look.map Token.kind).any p = true ↔ ∃ token, s.look = some token ∧ p token.kind = true := by
  cases s.look <;> simp

/-- The parser that looks at the next token of a stream. -/
def atNext (s : Parser) (next : Option Token) (line : Nat) (pending : List Scan) : Parser :=
  { s with pending, look := next, line, log := s.log.push (.scanned line next) }

theorem run_move_nil {s : Parser} (h : s.pending = []) :
    move.run s = .ok () (atNext s none s.line []) := by
  simp [move, h, atNext]

theorem run_move_ok {s : Parser} {next : Option Token} {lexer : Lexer} {pending : List Scan}
    (h : s.pending = ⟨.ok next, lexer⟩ :: pending) :
    move.run s = .ok () (atNext s next lexer.line pending) := by
  simp [move, h, atNext]

theorem run_move_error {s : Parser} {failure : ScanFailure} {lexer : Lexer} {pending : List Scan}
    (h : s.pending = ⟨.error failure, lexer⟩ :: pending) :
    move.run s = (failScan lexer.line failure).run { s with pending, line := lexer.line } := by
  simp [move, h]

theorem run_expect_of_ne {s : Parser} {kind : Kind} (h : s.look.map Token.kind ≠ some kind) :
    (expect kind).run s = (failSyntax (.token kind)).run s := by
  cases hlook : s.look with
  | none => simp [expect, hlook]
  | some token =>
    rw [hlook] at h
    simp [expect, hlook, show token.kind ≠ kind from fun he => h (congrArg some he)]

theorem run_expect {s : Parser} {token : Token} (h : s.look = some token) :
    (expect token.kind).run s = Result.bind (move.run s) fun _ => return token := by
  rw [← run_bind]
  simp [expect, h]

theorem run_expect_bind {s : Parser} {token : Token} {f : Token → Parsing α}
    (h : s.look = some token) :
    (expect token.kind >>= f).run s = (move >>= fun _ => f token).run s := by
  rw [run_bind, run_expect h, run_bind]
  cases move.run s <;> rfl

/-- The parser after an operation of the symbol table. -/
def answered (s : Parser) (response : SymbolTable.Response α) : Parser :=
  { s with symbols := response.table, log := s.log ++ response.log }

theorem run_onSymbols_ok {operation : SymbolTable → SymbolTable.Response α} {s : Parser} {a : α}
    (h : (operation s.symbols).result = .ok a) :
    (onSymbols operation).run s = .ok a (answered s (operation s.symbols)) := by
  simp only [onSymbols, run_bind, EStateM.run_get, bind_ok, EStateM.run_set, h]
  rfl

theorem run_onSymbols_error {operation : SymbolTable → SymbolTable.Response α} {s : Parser}
    {refusal : SymbolTable.Refusal} (h : (operation s.symbols).result = .error refusal) :
    (onSymbols operation).run s =
      (failRefusal refusal).run (answered s (operation s.symbols)) := by
  simp only [onSymbols, run_bind, EStateM.run_get, bind_ok, EStateM.run_set, h]
  rfl

/-- An operation of the symbol table leaves the parser looking at the same token. -/
theorem look_of_run_onSymbols {operation : SymbolTable → SymbolTable.Response α} {s s' : Parser}
    {a : α} (h : (onSymbols operation).run s = .ok a s') : s'.look = s.look := by
  cases hr : (operation s.symbols).result with
  | ok b =>
    rw [run_onSymbols_ok hr] at h
    cases h
    rfl
  | error refusal =>
    rw [run_onSymbols_error hr] at h
    cases refusal <;> cases h

/-! ### Contracts -/

/-- A result of a run from `s` is one of reading a word of the language `L`. -/
def ReadsFrom (L : Language Terminal) (s : Parser) : Result α → Prop
  | .ok _ s' => ∃ u, s.Passes u s' ∧ u.map Token.terminal ∈ L
  | .error (.fault ⟨.syntactic _ found, _⟩) s' =>
    found = s'.look ∧ ∃ u w, s.Passes u s' ∧ u.map Token.terminal ++ w ∈ L
  | .error _ _ => True

/-- The procedure `m` reads words of the language `L`, which has some. -/
structure Reads (L : Language Terminal) (m : Parsing α) : Prop where
  nonempty : ∃ w, w ∈ L
  run : ∀ s, ReadsFrom L s (m.run s)

variable {L M : Language Terminal} {s : Parser}

theorem ReadsFrom.mono {r : Result α} (h : ReadsFrom L s r) (hle : L ≤ M) : ReadsFrom M s r := by
  match r, h with
  | .ok _ _, ⟨u, hu, hmem⟩ => exact ⟨u, hu, hle hmem⟩
  | .error (.fault ⟨.syntactic _ _, _⟩) _, ⟨hfound, u, w, hu, hmem⟩ =>
    exact ⟨hfound, u, w, hu, hle hmem⟩
  | .error (.fault ⟨.lexical _, _⟩) _, _ => trivial
  | .error (.fault ⟨.semantic _, _⟩) _, _ => trivial
  | .error (.abort _) _, _ => trivial
  | .error .tooDeep _, _ => trivial

theorem Reads.mono {m : Parsing α} (h : Reads L m) (hle : L ≤ M) : Reads M m where
  nonempty := h.nonempty.imp fun _ hw => hle hw
  run s := (h.run s).mono hle

/-- Going on from a result reads a word of the second language after one of the first. -/
theorem ReadsFrom.bind {r : Result α} {f : α → Parsing β} (h : ReadsFrom L s r)
    (hf : ∀ a s', r = .ok a s' → ReadsFrom M s' ((f a).run s')) (hM : ∃ w, w ∈ M) :
    ReadsFrom (L * M) s (Result.bind r f) := by
  match r, h with
  | .ok a s', ⟨u, hu, hmem⟩ =>
    -- The second part goes on from where the first has moved to.
    rw [bind_ok]
    match hr : (f a).run s', hf a s' rfl with
    | .ok _ _, ⟨v, hv, hmem'⟩ =>
      exact ⟨u ++ v, hu.trans hv, by rw [List.map_append]; exact Language.append_mem_mul hmem hmem'⟩
    | .error (.fault ⟨.syntactic _ _, _⟩) _, ⟨hfound, v, w, hv, hmem'⟩ =>
      refine ⟨hfound, u ++ v, w, hu.trans hv, ?_⟩
      rw [List.map_append, List.append_assoc]
      exact Language.append_mem_mul hmem hmem'
    | .error (.fault ⟨.lexical _, _⟩) _, _ => trivial
    | .error (.fault ⟨.semantic _, _⟩) _, _ => trivial
    | .error (.abort _) _, _ => trivial
    | .error .tooDeep _, _ => trivial
  | .error (.fault ⟨.syntactic _ _, _⟩) _, ⟨hfound, u, w, hu, hmem⟩ =>
    -- The second part never ran: any word of its language completes what the first has read.
    obtain ⟨w', hw'⟩ := hM
    refine ⟨hfound, u, w ++ w', hu, ?_⟩
    rw [← List.append_assoc]
    exact Language.append_mem_mul hmem hw'
  | .error (.fault ⟨.lexical _, _⟩) _, _ => trivial
  | .error (.fault ⟨.semantic _, _⟩) _, _ => trivial
  | .error (.abort _) _, _ => trivial
  | .error .tooDeep _, _ => trivial

theorem nonempty_mul (hL : ∃ w, w ∈ L) (hM : ∃ w, w ∈ M) : ∃ w, w ∈ L * M :=
  let ⟨_, hv⟩ := hL
  let ⟨_, hw⟩ := hM
  ⟨_, Language.append_mem_mul hv hw⟩

theorem Reads.bind [Inhabited α] {m : Parsing α} {f : α → Parsing β} (h : Reads L m)
    (hf : ∀ a, Reads M (f a)) : Reads (L * M) (m >>= f) where
  nonempty := nonempty_mul h.nonempty (hf default).nonempty
  run s := by
    rw [run_bind]
    exact (h.run s).bind (fun a s' _ => (hf a).run s') (hf default).nonempty

theorem reads_pure (a : α) : Reads 1 (pure a : Parsing α) where
  nonempty := ⟨[], rfl⟩
  run s := ⟨[], .refl s, rfl⟩

theorem reads_failSyntax {expectation : Expectation} (hL : ∃ w, w ∈ L) :
    Reads L (failSyntax expectation : Parsing α) where
  nonempty := hL
  run s := let ⟨w, hw⟩ := hL; ⟨rfl, [], w, .refl s, hw⟩

theorem reads_failSemantic {cause : SemanticCause} (hL : ∃ w, w ∈ L) :
    Reads L (failSemantic cause : Parsing α) where
  nonempty := hL
  run _ := trivial

theorem reads_failScan (line : Nat) (failure : ScanFailure) (s s' : Parser) :
    ReadsFrom L s ((failScan line failure : Parsing α).run s') := by
  cases failure <;> trivial

/-- A step that succeeds passes the token looked at. -/
theorem readsFrom_move {token : Token} (h : s.look = some token) :
    ReadsFrom {[token.terminal]} s (move.run s) := by
  match hp : s.pending with
  | [] =>
    rw [run_move_nil hp]
    refine ⟨[token], ⟨?_, ?_, ⟨[], ?_, ?_⟩, by rw [hp]; exact Nat.zero_le _⟩, rfl⟩
    · rw [Parser.ahead_of_look h, hp]; rfl
    · rw [Parser.failure?, h, hp]; rfl
    · simp [Parser.scanned, scannedTokens, atNext, Event.token?]
    · simp [h, atNext]
  | ⟨.ok next, lexer⟩ :: pending =>
    rw [run_move_ok hp]
    refine ⟨[token], ⟨?_, ?_, ⟨next.toList, ?_, ?_⟩, by rw [hp]; exact Nat.le_refl _⟩, rfl⟩
    · rw [Parser.ahead_of_look h, hp]
      cases next <;> rfl
    · rw [Parser.failure?, h, hp]
      cases next <;> rfl
    · cases next <;> simp [Parser.scanned, scannedTokens, atNext, Event.token?]
    · simp [h, atNext]
  | ⟨.error failure, lexer⟩ :: pending =>
    rw [run_move_error hp]
    exact reads_failScan ..

/-- A step from a token looked at, with what follows. -/
theorem readsFrom_move_bind {token : Token} {f : Unit → Parsing α} (h : s.look = some token)
    (hf : ∀ u, Reads L (f u)) : ReadsFrom ({[token.terminal]} * L) s ((move >>= f).run s) := by
  rw [run_bind]
  exact (readsFrom_move h).bind (fun u s' _ => (hf u).run s') (hf ()).nonempty

/-- The words that are one token of a kind. -/
def kindLanguage (kind : Kind) : Language Terminal :=
  {w | ∃ token : Token, token.kind = kind ∧ w = [token.terminal]}

theorem reads_expect_kind (kind : Kind) : Reads (kindLanguage kind) (expect kind) where
  nonempty := ⟨_, Token.plain kind, rfl, rfl⟩
  run s := by
    by_cases h : s.look.map Token.kind = some kind
    · obtain ⟨token, hlook, rfl⟩ := Option.map_eq_some_iff.1 h
      rw [run_expect hlook]
      have hmove := (readsFrom_move hlook).bind (fun _ s' _ => (reads_pure token).run s') ⟨[], rfl⟩
      rw [mul_one] at hmove
      exact hmove.mono fun w hw => ⟨token, rfl, hw⟩
    · rw [run_expect_of_ne h]
      have hne : ∃ w, w ∈ kindLanguage kind := ⟨_, Token.plain kind, rfl, rfl⟩
      exact (reads_failSyntax hne).run s

/-- Expecting a kind other than that of names reads a token of it. -/
theorem reads_expect (kind : Kind) (h : kind ≠ .ident) : Reads {[.of kind]} (expect kind) := by
  refine (reads_expect_kind kind).mono ?_
  rintro w ⟨token, hkind, rfl⟩
  rw [Token.terminal_of_ne hkind h]
  rfl

/-- The words that are one name. -/
def nameLanguage : Language Terminal :=
  {w | ∃ lexeme, w = [.name lexeme]}

theorem reads_expect_ident : Reads nameLanguage (expect .ident) := by
  refine (reads_expect_kind .ident).mono ?_
  rintro w ⟨token, hkind, rfl⟩
  exact ⟨token.text, by rw [Token.terminal_of_eq hkind]⟩

/-! ### Steps that read nothing -/

theorem nonempty_one : ∃ w, w ∈ (1 : Language Terminal) :=
  ⟨[], rfl⟩

/-- An operation of the symbol table reads nothing. -/
theorem reads_onSymbols {operation : SymbolTable → SymbolTable.Response α}
    (h : ∀ table, scannedTokens (operation table).log = []) : Reads 1 (onSymbols operation) where
  nonempty := nonempty_one
  run s := by
    cases hr : (operation s.symbols).result with
    | ok a =>
      rw [run_onSymbols_ok hr]
      have hlog := h s.symbols
      simp only [scannedTokens] at hlog
      exact ⟨[], .of_same rfl rfl (by simp [Parser.scanned, scannedTokens, answered, hlog]), rfl⟩
    | error refusal =>
      rw [run_onSymbols_error hr]
      cases refusal <;> trivial

/-! No operation of the symbol table reports a scan. -/

theorem scannedTokens_enter (table : SymbolTable) (hint : Option String) :
    scannedTokens (table.enter hint).log = [] := by
  rw [SymbolTable.enter]
  split <;> rfl

theorem scannedTokens_leave (table : SymbolTable) : scannedTokens table.leave.log = [] := by
  rw [SymbolTable.leave]
  split <;> rfl

theorem scannedTokens_declare (table : SymbolTable) (name : String) (ty : Ty)
    (line : Option Int) : scannedTokens (table.declare name ty line).log = [] := by
  rw [SymbolTable.declare]
  split
  · rfl
  · split <;> rfl

theorem scannedTokens_lookup (table : SymbolTable) (name : String) :
    scannedTokens (table.lookup name).log = [] := by
  rw [SymbolTable.lookup]
  split <;> rfl

theorem reads_enterScope (hint : Option String) : Reads 1 (enterScope hint) := by
  have h : Reads 1 (onSymbols (·.enter hint)) := reads_onSymbols fun t => scannedTokens_enter t hint
  simpa [enterScope] using h.bind fun _ => reads_pure ()

theorem reads_leaveScope : Reads 1 leaveScope :=
  reads_onSymbols scannedTokens_leave

theorem run_declare (name : String) (ty : Ty) (s : Parser) :
    (declare name ty).run s =
      Result.bind ((onSymbols (·.declare name ty (some s.line))).run s) fun _ => return () := by
  simp only [declare, run_bind, EStateM.run_get, bind_ok]

theorem reads_declare (name : String) (ty : Ty) : Reads 1 (declare name ty) where
  nonempty := nonempty_one
  run s := by
    have h : Reads 1 (onSymbols (·.declare name ty (some s.line))) :=
      reads_onSymbols fun t => scannedTokens_declare t name ty _
    rw [run_declare, ← mul_one (1 : Language Terminal)]
    exact (h.run s).bind (fun _ s' _ => (reads_pure ()).run s') nonempty_one

/-- A look-up succeeds if it finds an entry. -/
theorem run_lookup_eq_ok_iff {name : String} {s t : Parser} {ty : Ty} :
    (lookup name).run s = .ok ty t ↔
      (∃ entry, s.symbols.find? name = some entry ∧ entry.ty = ty) ∧
        t = answered s (s.symbols.lookup name) := by
  simp only [← SymbolTable.lookup_eq_some_iff]
  rw [lookup, run_bind]
  cases hresult : (s.symbols.lookup name).result with
  | ok found =>
    rw [run_onSymbols_ok hresult, bind_ok]
    cases found with
    | some entry =>
      constructor
      · rintro ⟨⟩
        exact ⟨⟨entry, rfl, rfl⟩, rfl⟩
      · rintro ⟨⟨_, ⟨⟩, rfl⟩, rfl⟩
        rfl
    | none => exact iff_of_false (by rintro ⟨⟩) (by rintro ⟨⟨_, ⟨⟩, -⟩, -⟩)
  | error refusal =>
    rw [run_onSymbols_error hresult]
    exact iff_of_false (by cases refusal <;> rintro ⟨⟩) (by rintro ⟨⟨_, ⟨⟩, -⟩, -⟩)

theorem reads_lookup (name : String) : Reads 1 (lookup name) := by
  have h : Reads 1 (onSymbols (·.lookup name)) :=
    reads_onSymbols fun t => scannedTokens_lookup t name
  rw [lookup, ← mul_one (1 : Language Terminal)]
  refine h.bind fun entry => ?_
  cases entry with
  | none => exact reads_failSemantic nonempty_one
  | some entry => exact reads_pure _

theorem reads_arithmetic (left right : Ty) : Reads 1 (arithmetic left right) := by
  simp only [arithmetic]
  split
  · exact reads_failSemantic nonempty_one
  · exact reads_pure _

theorem reads_binary (op : Kind) (left right : Ty) : Reads 1 (binary op left right) := by
  rw [binary]
  split
  · exact reads_pure _
  · exact reads_arithmetic _ _

theorem reads_requireBool (ty : Ty) (what : String) : Reads 1 (requireBool ty what) := by
  rw [requireBool]
  split
  · exact reads_pure _
  · exact reads_failSemantic nonempty_one

/-! ### Loops -/

variable {p : Kind → Bool} {step : Kind → α → Parsing α}

/-- A loop reads a word of its step's language in every turn. -/
theorem reads_repeatWhile
    (h : ∀ token a s, s.look = some token → p token.kind →
      ReadsFrom L s ((step token.kind a).run s))
    (fuel : Nat) (a : α) : Reads L∗ (repeatWhile p step fuel a) := by
  have hdone (a : α) : Reads L∗ (pure a) := (reads_pure a).mono one_le_kstar
  -- Fuel that runs out ends the loop early, which is a word of the star all the same.
  induction fuel generalizing a with
  | zero => exact hdone a
  | succ fuel ih =>
    refine ⟨(hdone a).nonempty, fun s => ?_⟩
    simp only [repeatWhile, run_bind, run_lookKind?, bind_ok]
    cases hlook : s.look with
    | none => exact (hdone a).run s
    | some token =>
      simp only [Option.map_some]
      split
      · next hp =>
        rw [run_bind]
        have hturn := (h token a s hlook hp).bind (fun b s' _ => (ih b).run s') (hdone a).nonempty
        exact hturn.mono mul_kstar_le_kstar
      · exact (hdone a).run s

theorem reads_whileLooking
    (h : ∀ token a s, s.look = some token → p token.kind →
      ReadsFrom L s ((step token.kind a).run s))
    (a : α) : Reads L∗ (whileLooking p a step) where
  nonempty := ⟨[], Language.nil_mem_kstar L⟩
  run s := (reads_repeatWhile h (s.pending.length + 2) a).run s

/-! ### The fuel of loops -/

/-- A step that succeeds from a token of a kind that satisfies `p` leaves fewer tokens ahead. -/
def Advances (p : Kind → Bool) (step : Kind → α → Parsing α) : Prop :=
  ∀ token a s b s', s.look = some token → p token.kind → (step token.kind a).run s = .ok b s' →
    s'.ahead.length < s.ahead.length

/-- A step that succeeds from a token of a kind that satisfies `p` passes a token. -/
def Progresses (p : Kind → Bool) (step : Kind → α → Parsing α) : Prop :=
  ∀ token a s b s', s.look = some token → p token.kind → (step token.kind a).run s = .ok b s' →
    s.PassesAtLeast 1 s'

theorem Progresses.advances (h : Progresses p step) : Advances p step :=
  fun token a s b s' hlook hp hrun => (h token a s b s' hlook hp hrun).length_le

/-- A run that succeeds has passed the tokens of the word it reads. -/
theorem ReadsFrom.passesAtLeast {a : α} {s' : Parser} (h : ReadsFrom L s (.ok a s')) :
    s.PassesAtLeast 0 s' := by
  obtain ⟨u, hu, -⟩ := h
  exact ⟨u, hu, Nat.zero_le _⟩

theorem ReadsFrom.passesAtLeast_one {a : α} {s' : Parser} (h : ReadsFrom L s (.ok a s'))
    (hL : [] ∉ L) : s.PassesAtLeast 1 s' := by
  obtain ⟨u, hu, hmem⟩ := h
  refine ⟨u, hu, List.length_pos_iff.2 ?_⟩
  rintro rfl
  exact hL hmem

theorem nil_notMem_mul {t : Terminal} : [] ∉ ({[t]} * L : Language Terminal) := by
  rintro ⟨_, rfl, w, -, hnil⟩
  exact List.cons_ne_nil _ _ hnil

/-- A step that reads a terminal first progresses. -/
theorem Progresses.of_reads {t : Token → Terminal}
    (h : ∀ token a s, s.look = some token → p token.kind →
      ReadsFrom ({[t token]} * L) s ((step token.kind a).run s)) : Progresses p step := by
  intro token a s b s' hlook hp hrun
  have hreads := h token a s hlook hp
  rw [hrun] at hreads
  exact hreads.passesAtLeast_one nil_notMem_mul

theorem length_tokens_le (scans : List Scan) : (Scan.tokens scans).length ≤ scans.length := by
  induction scans with
  | nil => exact Nat.le_refl 0
  | cons scan scans ih =>
    obtain ⟨_ | _ | token, after⟩ := scan
    · exact Nat.zero_le _
    · exact Nat.zero_le _
    · exact Nat.succ_le_succ ih

/-- The fuel of a loop is more than the tokens ahead. -/
theorem length_ahead_lt (s : Parser) : s.ahead.length < s.pending.length + 2 := by
  have h := length_tokens_le s.pending
  rw [Parser.ahead]
  cases s.look <;> simp only [List.length_nil, List.length_cons] <;> omega

/-- A loop stops before a token of a kind that does not satisfy its condition. -/
theorem repeatWhile_run_of_not (h : (s.look.map Token.kind).any p = false) (fuel : Nat) (a : α) :
    (repeatWhile p step fuel a).run s = .ok a s := by
  cases fuel with
  | zero => rfl
  | succ fuel =>
    simp only [repeatWhile, run_bind, run_lookKind?, bind_ok]
    cases hlook : s.look with
    | none => rfl
    | some token =>
      simp only [hlook, Option.map_some, Option.any_some] at h
      simp only [Option.map_some, h]
      rfl

theorem repeatWhile_run_succ {token : Token} (hlook : s.look = some token) (hp : p token.kind)
    (fuel : Nat) (a : α) : (repeatWhile p step (fuel + 1) a).run s =
      Result.bind ((step token.kind a).run s) (repeatWhile p step fuel) := by
  simp only [repeatWhile, run_bind, run_lookKind?, bind_ok, hlook, Option.map_some, hp, if_true]

/-- With more fuel than tokens ahead, the fuel does not matter. -/
theorem repeatWhile_run_eq (h : Advances p step) (fuel : Nat) :
    ∀ (fuel' : Nat) (a : α) (s : Parser), s.ahead.length < fuel → s.ahead.length < fuel' →
      (repeatWhile p step fuel a).run s = (repeatWhile p step fuel' a).run s := by
  induction fuel with
  | zero => intro _ _ _ hfuel; exact absurd hfuel (Nat.not_lt_zero _)
  | succ fuel ih =>
    intro fuel' a s hfuel hfuel'
    cases hlooking : (s.look.map Token.kind).any p with
    | false => rw [repeatWhile_run_of_not hlooking, repeatWhile_run_of_not hlooking]
    | true =>
      obtain ⟨token, hlook, hp⟩ := looking_iff.1 hlooking
      obtain ⟨fuel', rfl⟩ := Nat.exists_eq_succ_of_ne_zero (Nat.ne_zero_of_lt hfuel')
      rw [repeatWhile_run_succ hlook hp, repeatWhile_run_succ hlook hp]
      cases hstep : (step token.kind a).run s with
      | error e s' => rfl
      | ok b s' =>
        have hlt := h token a s b s' hlook hp hstep
        exact ih fuel' b s' (by omega) (by omega)

theorem whileLooking_run_of_not (h : (s.look.map Token.kind).any p = false) (a : α) :
    (whileLooking p a step).run s = .ok a s :=
  repeatWhile_run_of_not h _ a

/-- A loop whose step advances goes on as long as it looks at a token of the right kind. -/
theorem whileLooking_run (h : Advances p step) {token : Token} (hlook : s.look = some token)
    (hp : p token.kind) (a : α) : (whileLooking p a step).run s =
      Result.bind ((step token.kind a).run s) fun b => whileLooking p b step := by
  have hfuel : (whileLooking p a step).run s =
      (repeatWhile p step (s.pending.length + 2) a).run s := rfl
  rw [hfuel, repeatWhile_run_succ hlook hp]
  -- The turns that are left have the fuel of a loop begun before this one, not after it.
  cases hstep : (step token.kind a).run s with
  | error e s' => rfl
  | ok b s' =>
    have hlt := h token a s b s' hlook hp hstep
    have hlt' := length_ahead_lt s
    exact repeatWhile_run_eq h _ _ b s' (by omega) (length_ahead_lt s')

end Parsing

end MiniPascal
