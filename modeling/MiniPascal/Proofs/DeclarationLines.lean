import MiniPascal.Proofs.Elaboration
import MiniPascal.Proofs.Scopes
import MiniPascal.Proofs.Trace

/-!
# The lines of declarations

The symbol table gives each entry a line. That is not the line of the declared identifier but that
of the lexeme after it, which the parser looks at by the time it declares the name
(`declaration_lines`). The two are the same unless a line ends between the lexemes.

The names that a text declares, with both lines, are told from its rows alone
(`Tokenization.declaredNames`). Whatever the parser has declared, at any time, is among those of
the rows that it has scanned, in their order (`Records`); and a text that is accepted declares as
many names as it has entries.
-/

namespace MiniPascal

open Parsing

/-! ### Declared names -/

/-- An identifier where it is declared, with its line and that of the lexeme after it, or of the
    end of the text. -/
structure DeclaredName where
  name : String
  line : Nat
  nextLine : Nat
  deriving DecidableEq, Repr

/-- Whether identifiers are declared after a token of a kind: they are between the name of a type
    and the next semicolon. -/
def Kind.declaresAfter (declares : Bool) (kind : Kind) : Bool :=
  kind.beginsDecl || declares && kind ≠ .semicolon

theorem Kind.declaresAfter_mono {kind : Kind} {declares declares' : Bool}
    (h : declares → declares') (hkind : kind.declaresAfter declares) :
    kind.declaresAfter declares' := by
  cases declares with
  | true => rwa [h rfl]
  | false =>
    rw [declaresAfter, Bool.false_and, Bool.or_false] at hkind
    rw [declaresAfter, hkind, Bool.true_or]

/-- The names that rows declare. -/
def declaredNames (declares : Bool) (endLine : Nat) : List (Nat × Token) → List DeclaredName
  | [] => []
  | (line, token) :: rows =>
    let others := declaredNames (token.kind.declaresAfter declares) endLine rows
    if declares ∧ token.kind = .ident then
      ⟨token.text, line, (rows.head?.map Prod.fst).getD endLine⟩ :: others
    else others

/-- The names that a text declares. -/
def Tokenization.declaredNames (tokens : Tokenization) : List DeclaredName :=
  MiniPascal.declaredNames false tokens.lexer.line tokens.rows

/-- Whether identifiers are declared after rows. -/
def declaresAfter (declares : Bool) (rows : List (Nat × Token)) : Bool :=
  rows.foldl (fun declares row => row.2.kind.declaresAfter declares) declares

theorem declaresAfter_concat (declares : Bool) (rows : List (Nat × Token)) (row : Nat × Token) :
    declaresAfter declares (rows ++ [row]) =
      row.2.kind.declaresAfter (declaresAfter declares rows) := by
  rw [declaresAfter, List.foldl_concat, declaresAfter]

/-- One more row may declare one more name, whose next line is then that of the end. -/
theorem declaredNames_concat (declares : Bool) (endLine line : Nat) (token : Token)
    (rows : List (Nat × Token)) :
    declaredNames declares endLine (rows ++ [(line, token)]) = declaredNames declares line rows ++
      if declaresAfter declares rows ∧ token.kind = .ident then [⟨token.text, line, endLine⟩]
      else [] := by
  induction rows generalizing declares with
  | nil => rfl
  | cons row rows ih =>
    have hnext : (((rows ++ [(line, token)]).head?).map Prod.fst).getD endLine =
        (rows.head?.map Prod.fst).getD line := by
      cases rows <;> rfl
    simp only [List.cons_append, declaredNames, ih, hnext]
    split <;> rfl

/-! ### Entries -/

/-- What a declared name is entered as: with the line after it. -/
def DeclaredName.entered (d : DeclaredName) : String × Option Int :=
  (d.name, some d.nextLine)

/-- Names as they are entered on a line. -/
def enteredOn (line : Nat) (names : List String) : List (String × Option Int) :=
  names.map fun name => (name, some line)

/-- The names and lines of the entries of a table. -/
def SymbolTable.entered (table : SymbolTable) : List (String × Option Int) :=
  table.entries.toList.map fun entry => (entry.name, entry.line)

theorem SymbolTable.entered_enter (table : SymbolTable) (hint : Option String) :
    (table.enter hint).table.entered = table.entered := by
  rw [enter]
  split <;> rfl

theorem SymbolTable.entered_leave (table : SymbolTable) :
    table.leave.table.entered = table.entered := by
  rw [leave]
  split <;> rfl

theorem SymbolTable.entered_declare {table : SymbolTable} {name : String} {ty : Ty}
    {line : Option Int} {entry : Entry} (h : (table.declare name ty line).result = .ok entry) :
    (table.declare name ty line).table.entered = table.entered ++ [(name, line)] := by
  rw [declare] at h ⊢
  split at h
  · cases h
  · split at h
    · cases h
    · next hnew =>
      simp [hnew, entered]

/-! ### Midway -/

namespace Parsing

/-- A parser has scanned rows and, after them, what it looks at. -/
def HasScanned (s : Parser) (rows : List (Nat × Token)) : Prop :=
  scanEvents s.log.toList = rows.map Event.ofRow ++ [.scanned s.line s.look]

/-- What a parser has entered, and what it is due to enter, are names that the rows declare which
    it has scanned. If it is in a declaration, it has scanned the name of the type. -/
structure Records (declares : Bool) (due : List String) (s : Parser)
    (rows : List (Nat × Token)) : Prop where
  scanned : HasScanned s rows
  entered : (s.symbols.entered ++ enteredOn s.line due).Sublist
    ((declaredNames false s.line rows).map DeclaredName.entered)
  declares : declares → declaresAfter false rows

/-- That is asserted where a parser is not interrupted. -/
def records (declares : Bool) (due : List String) : Assertion where
  holds s := ∃ rows, Records declares due s rows
  stops _ _ := True

variable {α : Type} {declares declares' : Bool} {due due' : List String} {s : Parser}
  {rows : List (Nat × Token)} {token : Token}

theorem HasScanned.atNext (h : HasScanned s rows) (hlook : s.look = some token)
    (next : Option Token) (line : Nat) (pending : List Scan) :
    HasScanned (atNext s next line pending) (rows ++ [(s.line, token)]) := by
  rw [HasScanned, scanEvents_atNext, h, List.map_append, hlook]
  rfl

/-- Past an identifier that is declared a parser is to enter it. -/
theorem Records.atNext (h : Records declares [] s rows) (hlook : s.look = some token)
    (hdeclares : declares' → token.kind.declaresAfter declares)
    (hdue : due = [] ∨ due = [token.text] ∧ declares ∧ token.kind = .ident)
    (next : Option Token) (line : Nat) (pending : List Scan) :
    Records declares' due (atNext s next line pending) (rows ++ [(s.line, token)]) where
  scanned := h.scanned.atNext hlook next line pending
  entered := by
    have hentered := h.entered
    rw [enteredOn, List.map_nil, List.append_nil] at hentered
    change (s.symbols.entered ++ _).Sublist
      ((declaredNames false line (rows ++ [(s.line, token)])).map DeclaredName.entered)
    rw [declaredNames_concat, List.map_append]
    refine hentered.append ?_
    rcases hdue with rfl | ⟨rfl, hinside, hkind⟩
    · exact List.nil_sublist _
    · rw [if_pos ⟨h.declares hinside, hkind⟩]
      exact List.Sublist.refl _
  declares hinside := by
    rw [declaresAfter_concat]
    exact Kind.declaresAfter_mono h.declares (hdeclares hinside)

theorem Records.kept_move (h : Records declares [] s rows) (hlook : s.look = some token)
    (hdeclares : declares' → token.kind.declaresAfter declares)
    (hdue : due = [] ∨ due = [token.text] ∧ declares ∧ token.kind = .ident) :
    (records declares' due).Kept (move.run s) :=
  Assertion.kept_move (fun _ => ⟨_, h.atNext hlook hdeclares hdue none s.line []⟩)
    (fun next lexer pending _ => ⟨_, h.atNext hlook hdeclares hdue next lexer.line pending⟩)
    fun _ _ _ _ => trivial

/-- A token is met that goes on with a declaration, or begins one. -/
theorem Records.kept_expect {kind : Kind} (h : Records declares [] s rows)
    (hdeclares : declares' → kind.declaresAfter declares) :
    (records declares' []).Kept ((expect kind).run s) := by
  by_cases hlook : s.look.map Token.kind = some kind
  · obtain ⟨token, htoken, rfl⟩ := Option.map_eq_some_iff.1 hlook
    rw [run_expect htoken]
    exact (h.kept_move htoken hdeclares (.inl rfl)).bind fun _ => Assertion.keeps_pure token
  · rw [run_expect_of_ne hlook]
    trivial

theorem Records.kept_onSymbols {operation : SymbolTable → SymbolTable.Response α}
    (h : Records declares due s rows) (hlog : scanEvents (operation s.symbols).log = [])
    (hentered : ∀ a, (operation s.symbols).result = .ok a →
      (operation s.symbols).table.entered ++ enteredOn s.line due' =
        s.symbols.entered ++ enteredOn s.line due) :
    (records declares due').Kept ((onSymbols operation).run s) := by
  cases hr : (operation s.symbols).result with
  | error refusal =>
    rw [run_onSymbols_error hr]
    cases refusal <;> trivial
  | ok a =>
    rw [run_onSymbols_ok hr]
    refine ⟨rows, ?_, ?_, h.declares⟩
    · have hevents : scanEvents (answered s (operation s.symbols)).log.toList =
          scanEvents s.log.toList := by
        simp only [scanEvents] at hlog
        simp [scanEvents, answered, hlog]
      exact hevents.trans h.scanned
    · change ((operation s.symbols).table.entered ++ _).Sublist _
      exact hentered a hr ▸ h.entered

theorem Records.kept_declare {name : String} (h : Records declares [name] s rows) (ty : Ty) :
    (records declares []).Kept ((declare name ty).run s) := by
  rw [run_declare]
  refine Assertion.Kept.bind (h.kept_onSymbols ?_ fun entry hentry => ?_) fun _ =>
    Assertion.keeps_pure ()
  · exact s.symbols.scanEvents_declare name ty _
  · rw [SymbolTable.entered_declare hentry]
    simp [enteredOn]

theorem Records.kept_leaveScope (h : Records declares [] s rows) :
    (records declares []).Kept (leaveScope.run s) := by
  refine h.kept_onSymbols s.symbols.scanEvents_leave fun _ _ => ?_
  rw [SymbolTable.entered_leave]

/-! ### Declarations -/

/-- A name is declared on the line of what the parser looks at after it. -/
theorem keeps_declaredName_records (ty : Ty) : (records true []).Keeps (declaredName ty) := by
  rintro s ⟨rows, h⟩
  by_cases hlook : s.look.map Token.kind = some .ident
  · obtain ⟨token, htoken, hkind⟩ := Option.map_eq_some_iff.1 hlook
    have hmove : (records true [token.text]).Kept (move.run s) :=
      h.kept_move htoken (fun _ => by rw [hkind]; rfl) (.inr ⟨rfl, rfl, hkind⟩)
    rw [declaredName, ← hkind, run_expect_bind htoken, run_bind]
    exact hmove.onward (fun _ _ => id) fun _ _ ⟨_, h'⟩ => h'.kept_declare ty
  · rw [declaredName, run_bind, run_expect_of_ne hlook]
    trivial

theorem keeps_identList_records (ty : Ty) : (records true []).Keeps (identList ty) := by
  have hcomma : (records true []).Keeps (expect .comma) :=
    fun _ ⟨_, h⟩ => h.kept_expect fun _ => rfl
  refine (keeps_declaredName_records ty).bind fun _ =>
    Assertion.keeps_whileLooking (fun _ _ => ?_) ()
  exact (hcomma.bind fun _ => keeps_declaredName_records ty).looking

theorem Records.kept_typeSpec (h : Records declares [] s rows) :
    (records true []).Kept (typeSpec.run s) := by
  simp only [typeSpec, run_bind, run_lookKind?, bind_ok]
  cases hty : (s.look.map Token.kind).bind Kind.declaredType? with
  | none => trivial
  | some ty =>
    obtain ⟨kind, hkind, hty⟩ := Option.bind_eq_some_iff.1 hty
    obtain ⟨token, hlook, rfl⟩ := Option.map_eq_some_iff.1 hkind
    have hbegins : token.kind.declaresAfter declares := by
      rw [Kind.declaresAfter, Kind.beginsDecl, hty]
      rfl
    have hmove : (records true []).Kept (move.run s) :=
      h.kept_move hlook (fun _ => hbegins) (.inl rfl)
    simp only [run_bind]
    exact hmove.bind fun _ => Assertion.keeps_pure ty

/-- Between its first token and its last a declaration enters names. -/
theorem keeps_decl_records : (records false []).Keeps decl := by
  rintro s ⟨rows, h⟩
  have hcolon : (records true []).Keeps (expect .colon) :=
    fun _ ⟨_, h⟩ => h.kept_expect fun _ => rfl
  rw [decl, run_bind]
  refine h.kept_typeSpec.onward (fun _ _ => id) fun ty s₁ hs₁ => ?_
  rw [run_bind]
  refine (hcolon s₁ hs₁).onward (fun _ _ => id) fun _ s₂ hs₂ => ?_
  rw [run_bind]
  refine (keeps_identList_records ty s₂ hs₂).onward (fun _ _ => id) fun _ s₃ ⟨rows₃, h₃⟩ => ?_
  -- The semicolon ends the declaration.
  have hsemicolon : (records false []).Kept ((expect .semicolon).run s₃) :=
    h₃.kept_expect fun h => nomatch h
  rw [run_bind]
  exact hsemicolon.bind fun _ => Assertion.keeps_pure ()

/-- What a parser enters are names of what it scans. -/
def recordsInvariant : LeveledInvariant where
  holds _ := (records false []).holds
  ended := (records false []).holds
  stops _ _ := True
  -- Outside of a declaration any token may be passed, also one that would begin a declaration.
  moves _ s token hlook := fun ⟨rows, h⟩ => h.kept_move hlook (fun h => nomatch h) (.inl rfl)
  looksUp _ name := by
    refine Assertion.Keeps.bind (fun s ⟨rows, h⟩ => h.kept_onSymbols ?_ ?_) fun entry => ?_
    · exact s.symbols.scanEvents_lookup name
    · intro _ _
      rw [SymbolTable.table_lookup]
    · cases entry with
      | none => exact fun _ _ => trivial
      | some entry => exact Assertion.keeps_pure _
  declares _ := keeps_decl_records
  enters _ hint s := fun ⟨rows, h⟩ => by
    rw [enterScope, run_bind]
    refine Assertion.Kept.bind (h.kept_onSymbols ?_ fun _ _ => ?_) fun _ => Assertion.keeps_pure ()
    · exact s.symbols.scanEvents_enter hint
    · rw [SymbolTable.entered_enter]
  leaves _ _ := fun ⟨_, h⟩ => h.kept_leaveScope
  ends := fun ⟨_, h⟩ => h.kept_leaveScope
  failsSyntax _ _ := trivial
  failsSemantic _ _ := trivial
  failsTooDeep _ := trivial

/-- The check of a text enters names of its tokens. -/
theorem records_of_check {scans : List Scan} (h : check.run (.ofScans scans) = .ok () s) :
    ∃ rows, Records false [] s rows := by
  have hstart : (records false []).Kept (move.run (.ofScans scans)) := by
    have hfirst (next : Option Token) (line : Nat) (pending : List Scan) :
        Records false [] (atNext (.ofScans scans) next line pending) [] :=
      ⟨rfl, List.Sublist.refl [], fun h => nomatch h⟩
    exact Assertion.kept_move (fun _ => ⟨_, hfirst _ _ _⟩) (fun _ _ _ _ => ⟨_, hfirst _ _ _⟩)
      fun _ _ _ _ => trivial
  have hkept := recordsInvariant.kept_check hstart
  rw [h] at hkept
  exact hkept

end Parsing

/-! ### Accepted texts -/

namespace Outline

variable {o : Outline}

theorem isSome_type_read (t : Terminal) :
    (o.read t).type.isSome = t.kind.declaresAfter o.type.isSome := by
  cases t with
  | name lexeme =>
    cases htype : o.type with
    | none => simp only [read, htype]; rfl
    | some ty => simp only [read, htype, type_add]; rfl
  | of kind =>
    cases kind <;>
      simp [read, enter, leave, Terminal.kind, Kind.declaresAfter, Kind.beginsDecl,
        Kind.declaredType?]

theorem length_declarations_read (token : Token) :
    (o.read token.terminal).declarations.length = o.declarations.length +
      if o.type.isSome ∧ token.kind = .ident then 1 else 0 := by
  by_cases hkind : token.kind = .ident
  · rw [Token.terminal_of_eq hkind]
    cases htype : o.type with
    | none => simp [read, htype]
    | some ty => simp [read, htype, hkind, add]
  · have hsame (kind : Kind) : (o.read (.of kind)).declarations = o.declarations := by
      cases kind <;> rfl
    rw [Token.terminal_of_ne rfl hkind, hsame, if_neg fun h => hkind h.2, Nat.add_zero]

/-- Reading on by rows declares as many names as the rows do. -/
theorem length_declarations_foldl (endLine : Nat) (rows : List (Nat × Token)) :
    ((rows.map fun row => row.2.terminal).foldl read o).declarations.length =
      o.declarations.length + (declaredNames o.type.isSome endLine rows).length := by
  induction rows generalizing o with
  | nil => rfl
  | cons row rows ih =>
    rw [List.map_cons, List.foldl_cons, ih, length_declarations_read, isSome_type_read,
      Token.kind_terminal, declaredNames]
    split
    · rw [List.length_cons]
      omega
    · rw [Nat.add_zero]

end Outline

theorem Event.ofRow_injective : Function.Injective Event.ofRow := by
  rintro ⟨line, token⟩ ⟨line', token'⟩ h
  cases h
  rfl

/-- The rows that a parser has scanned by the end of its text are the tokens. -/
theorem rows_eq_of_accepted {text : String} {s : Parser} {rows : List (Nat × Token)}
    (hrun : check.run (.ofScans (Lexer.ofText text).scans) = .ok () s) (h : HasScanned s rows) :
    rows = (tokenize text).rows ∧ s.line = (tokenize text).lexer.line := by
  obtain ⟨hfailure, hlog⟩ := failure_tokenize_of_accepts (accepts_compileScans_iff.2 ⟨s, hrun⟩)
  have hevents : scanEvents s.log.toList = (tokenize text).log := by
    rw [← hlog, compile, log_compileScans, hrun]
    rfl
  rw [h, Tokenization.log_eq, hfailure] at hevents
  obtain ⟨hrows, hend⟩ := List.append_inj' hevents rfl
  refine ⟨List.map_injective_iff.2 Event.ofRow_injective hrows, ?_⟩
  exact (Event.scanned.inj (List.head_eq_of_cons_eq hend)).1

/-- A text that is accepted declares as many names as it has entries. -/
theorem length_entered_of_accepted {text : String} {table : SymbolTable}
    (h : (compile text).outcome = .ok (.accepted table)) :
    table.entered.length = (tokenize text).declaredNames.length := by
  obtain ⟨p, hp, hentries⟩ := declarations_of_accepted h
  have hword : (tokenize text).rows.map (fun row => row.2.terminal) = p.yield := by
    rw [← hp, List.map_map]
    rfl
  calc table.entered.length = (table.entries.toList.map Entry.declaration).length := by
        rw [SymbolTable.entered, List.length_map, List.length_map]
    _ = (p.yield.foldl Outline.read .global).declarations.length := by
        rw [hentries, p.elaboration_eq]
    _ = (tokenize text).declaredNames.length := by
        rw [← hword, Outline.length_declarations_foldl (tokenize text).lexer.line]
        exact Nat.zero_add _

/-- The entries of a text that is accepted are the names that its rows declare, in their order,
    each with the line of the lexeme after it. That is the line of the identifier itself in all
    entries if and only if every declared identifier is on one line with the lexeme after it. -/
theorem declaration_lines {text : String} {table : SymbolTable}
    (h : (compile text).outcome = .ok (.accepted table)) :
    table.entered = (tokenize text).declaredNames.map (fun d => (d.name, some ↑d.nextLine)) ∧
      (table.entered = (tokenize text).declaredNames.map (fun d => (d.name, some ↑d.line)) ↔
        ∀ d ∈ (tokenize text).declaredNames, d.nextLine = d.line) := by
  have hlength := length_entered_of_accepted h
  obtain ⟨s, hrun, rfl⟩ := run_check_of_accepted h
  obtain ⟨rows, hrecords⟩ := records_of_check hrun
  obtain ⟨rfl, hline⟩ := rows_eq_of_accepted hrun hrecords.scanned
  have hsublist := hrecords.entered
  rw [hline, enteredOn, List.map_nil, List.append_nil] at hsublist
  -- They are among the declared names, and as many.
  have hentered : s.symbols.entered =
      (tokenize text).declaredNames.map DeclaredName.entered :=
    hsublist.eq_of_length (by rw [hlength, List.length_map]; rfl)
  refine ⟨hentered, ?_⟩
  rw [hentered, List.map_inj_left]
  refine forall₂_congr fun d _ => ⟨fun h => ?_, fun h => ?_⟩
  · exact Int.ofNat.inj (Option.some.inj (Prod.mk.inj h).2)
  · rw [DeclaredName.entered, h]

/-- The comma and the semicolon stand on the lines after the names. -/
theorem declaration_lines_two_names :
    let text := "program int: x % first\n, y \x7bsecond\n\x7d; begin x = y end"
    let table : SymbolTable :=
      ⟨[], #[⟨"x", .int, "global", 0, some 2⟩, ⟨"y", .int, "global", 0, some 3⟩], 0⟩
    (compile text).outcome = .ok (.accepted table) ∧
      (tokenize text).declaredNames = [⟨"x", 1, 2⟩, ⟨"y", 2, 3⟩] ∧
      table.entered = [("x", some 2), ("y", some 3)] := by
  intro text table
  have houtcome : (compile text).outcome = .ok (.accepted table) := by decide +kernel
  have hnames : (tokenize text).declaredNames = [⟨"x", 1, 2⟩, ⟨"y", 2, 3⟩] := by decide +kernel
  refine ⟨houtcome, hnames, ?_⟩
  rw [(declaration_lines houtcome).1, hnames]
  rfl

/-- The semicolon is on the next line, and that is the line of the entry. -/
theorem declaration_line_late :
    let text := "program int: x\n; begin x = 1 end"
    (compile text).outcome =
        .ok (.accepted ⟨[], #[⟨"x", .int, "global", 0, some 2⟩], 0⟩) ∧
      (tokenize text).declaredNames = [⟨"x", 1, 2⟩] ∧
      ((tokenize text).rows.map fun row => (row.1, row.2.text)).take 5 =
        [(1, "program"), (1, "int"), (1, ":"), (1, "x"), (2, ";")] := by
  decide +kernel

end MiniPascal
