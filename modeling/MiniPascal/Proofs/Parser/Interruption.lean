import MiniPascal.Proofs.FailFast
import MiniPascal.Proofs.Parser.Invariant

/-!
# What aborts a check

A check is aborted by a failed scan, and by nothing else (`outcome_eq_error_iff`). Every scan
that it has pulled before has succeeded, so the failed one is the last.

The symbol table could abort it too, by refusing to work without an open scope. It is never
asked to: the global scope is opened before the first name is read and closed after the last
token, and in between a body closes the scope that it has opened and no other. So as many
scopes are open as the bodies that the parser is in call for, wherever it is interrupted.
-/

namespace MiniPascal

open Parsing

/-- A scan that yields a token or the end of the text. -/
def Scan.Succeeds (scan : Scan) : Prop :=
  ∃ next, scan.result = .ok next

/-- All scans that a parser has pulled of a stream have succeeded. -/
def Parser.Unfailed (scans : List Scan) (s : Parser) : Prop :=
  ∃ before, scans = before ++ s.pending ∧ ∀ scan ∈ before, scan.Succeeds

/-- The last scan that a parser has pulled of a stream has failed, as the first one, and has
    interrupted it. -/
def Parser.FailedBy (scans : List Scan) (e : Interrupt) (s : Parser) : Prop :=
  ∃ before failure lexer, scans = before ++ ⟨.error failure, lexer⟩ :: s.pending ∧
    (∀ scan ∈ before, scan.Succeeds) ∧ e = failure.interrupt lexer.line

namespace Parsing

variable {α : Type} {scans : List Scan} {s : Parser}

/-- An interruption is by a scan, or is no abort. -/
def Interrupted (scans : List Scan) (e : Interrupt) (s : Parser) : Prop :=
  (s.Unfailed scans ∧ ∀ abort, e ≠ .abort abort) ∨ s.FailedBy scans e

/-- With `n` scopes open, no scan has failed so far. -/
def openScopes (scans : List Scan) (n : Nat) : Assertion where
  holds s := s.symbols.scopes.length = n ∧ s.Unfailed scans
  stops := Interrupted scans

theorem interrupted_fault {fault : Fault} (h : s.Unfailed scans) :
    Interrupted scans (.fault fault) s :=
  .inl ⟨h, by rintro _ ⟨⟩⟩

theorem unfailed_of_pending {s' : Parser} {scan : Scan} (h : s.Unfailed scans)
    (hscan : scan.Succeeds) (hpending : s.pending = scan :: s'.pending) : s'.Unfailed scans := by
  obtain ⟨before, hscans, hbefore⟩ := h
  refine ⟨before ++ [scan], by rw [hscans, hpending, List.append_assoc]; rfl, fun other hmem => ?_⟩
  rcases List.mem_append.1 hmem with hmem | hmem
  · exact hbefore other hmem
  · obtain rfl := List.mem_singleton.1 hmem
    exact hscan

theorem keeps_move_openScopes (n : Nat) : (openScopes scans n).Keeps move := by
  rintro s ⟨hlevel, hs⟩
  refine Assertion.kept_move (fun hpending => ⟨hlevel, ?_⟩) (fun next lexer pending hpending => ?_)
    fun failure lexer pending hpending => .inr ?_
  · obtain ⟨before, hscans, hbefore⟩ := hs
    exact ⟨before, by rw [hscans, hpending]; rfl, hbefore⟩
  · exact ⟨hlevel, unfailed_of_pending hs ⟨next, rfl⟩ hpending⟩
  · obtain ⟨before, hscans, hbefore⟩ := hs
    exact ⟨before, failure, lexer, by rw [hscans, hpending], hbefore, rfl⟩

/-! ### Operations of the symbol table -/

/-- With `n` scopes open afterwards, an operation is done, or refused for a redeclared name. -/
structure Granted (n : Nat) (r : SymbolTable.Response α) : Prop where
  ok {a : α} : r.result = .ok a → r.table.scopes.length = n
  error {refusal : SymbolTable.Refusal} : r.result = .error refusal →
    ∃ name line, refusal = .redeclared name line

theorem granted_enter (table : SymbolTable) (hint : Option String) :
    Granted (table.scopes.length + 1) (table.enter hint) := by
  obtain ⟨scopes, entries, counter⟩ := table
  cases scopes <;> exact ⟨fun _ => rfl, fun h => (by cases h)⟩

theorem granted_leave {table : SymbolTable} {n : Nat} (h : table.scopes.length = n + 1) :
    Granted n table.leave := by
  obtain ⟨scopes, entries, counter⟩ := table
  cases scopes with
  | nil => cases h
  | cons scope outer => exact ⟨fun _ => Nat.succ.inj h, fun h => (by cases h)⟩

theorem granted_declare {table : SymbolTable} {n : Nat} (h : table.scopes.length = n + 1)
    (name : String) (ty : Ty) (line : Option Int) :
    Granted (n + 1) (table.declare name ty line) := by
  obtain ⟨scopes, entries, counter⟩ := table
  cases scopes with
  | nil => cases h
  | cons scope outer =>
    simp only [SymbolTable.declare]
    split
    · exact ⟨fun h => (by cases h), fun h => (by cases h; exact ⟨_, _, rfl⟩)⟩
    · exact ⟨fun _ => h, fun h => (by cases h)⟩

theorem granted_lookup {table : SymbolTable} {n : Nat} (h : table.scopes.length = n + 1)
    (name : String) : Granted (n + 1) (table.lookup name) := by
  obtain ⟨scopes, entries, counter⟩ := table
  cases scopes with
  | nil => cases h
  | cons scope outer => exact ⟨fun _ => h, fun h => (by cases h)⟩

theorem kept_onSymbols {operation : SymbolTable → SymbolTable.Response α} {n : Nat}
    (hs : s.Unfailed scans) (h : Granted n (operation s.symbols)) :
    (openScopes scans n).Kept ((onSymbols operation).run s) := by
  cases hr : (operation s.symbols).result with
  | ok a =>
    rw [run_onSymbols_ok hr]
    exact ⟨h.ok hr, hs⟩
  | error refusal =>
    obtain ⟨name, line, rfl⟩ := h.error hr
    rw [run_onSymbols_error hr]
    exact interrupted_fault hs

theorem keeps_lookup (n : Nat) (name : String) :
    (openScopes scans (n + 1)).Keeps (lookup name) := by
  refine .bind (fun s hs => kept_onSymbols hs.2 (granted_lookup hs.1 name)) fun entry => ?_
  cases entry with
  | none => exact fun s hs => interrupted_fault hs.2
  | some entry => exact Assertion.keeps_pure _

theorem keeps_declare (n : Nat) (name : String) (ty : Ty) :
    (openScopes scans (n + 1)).Keeps (declare name ty) := by
  intro s hs
  rw [run_declare]
  exact (kept_onSymbols hs.2 (granted_declare hs.1 name ty _)).bind fun _ =>
    Assertion.keeps_pure ()

/-- Within a scope none is opened or closed. -/
def withinScope (scans : List Scan) (n : Nat) : Invariant where
  toAssertion := openScopes scans (n + 1)
  moves := (keeps_move_openScopes (n + 1)).looking
  looksUp := keeps_lookup n
  failsSyntax _ hs := interrupted_fault hs.2
  failsSemantic _ hs := interrupted_fault hs.2
  failsTooDeep hs := .inl ⟨hs.2, by rintro _ ⟨⟩⟩

/-- The parser opens and closes scopes in pairs, and works within one in between. -/
def openInvariant (scans : List Scan) : LeveledInvariant where
  holds n := (openScopes scans n).holds
  ended := (openScopes scans 0).holds
  stops := Interrupted scans
  moves n := (withinScope scans n).moves
  looksUp n := (withinScope scans n).looksUp
  declares n := Invariant.keeps_decl (I := withinScope scans n) fun name type =>
    keeps_declare n name type.ty
  enters n hint s hs := by
    have hkept : (openScopes scans (n + 1)).Kept ((onSymbols (·.enter hint)).run s) :=
      kept_onSymbols hs.2 (hs.1 ▸ granted_enter s.symbols hint)
    rw [enterScope, run_bind]
    exact hkept.bind fun _ => Assertion.keeps_pure ()
  leaves n s hs := kept_onSymbols hs.2 (granted_leave hs.1)
  ends hs := kept_onSymbols hs.2 (granted_leave hs.1)
  failsSyntax {n _} := (withinScope scans n).failsSyntax
  failsSemantic {n _} := (withinScope scans n).failsSemantic
  failsTooDeep {n _} := (withinScope scans n).failsTooDeep

/-- A check ends with no scan failed, or is interrupted by the first that fails, or otherwise
    without being aborted. -/
theorem kept_check_open (scans : List Scan) :
    (openScopes scans 0).Kept (check.run (.ofScans scans)) :=
  (openInvariant scans).kept_check
    (keeps_move_openScopes 0 _ ⟨rfl, [], rfl, fun _ h => absurd h List.not_mem_nil⟩)

end Parsing

/-! ### Outcomes -/

theorem pulledScans_eq {scans before : List Scan}
    (h : scans = before ++ (finalState (check.run (.ofScans scans))).pending) :
    pulledScans scans = before := by
  rw [pulledScans]
  generalize (finalState (check.run (.ofScans scans))).pending = rest at h
  rw [h, List.length_append, Nat.add_sub_cancel, List.take_left]

theorem ScanFailure.interrupt_eq_abort_iff {failure : ScanFailure} {line : Nat} {abort : Abort} :
    failure.interrupt line = .abort abort ↔ failure.abort? = some abort := by
  cases failure <;> simp [interrupt, abort?]

theorem outcome_ofRun_eq_error_iff {e : Interrupt} {s : Parser} {abort : Abort} :
    (Compilation.ofRun (.error e s)).outcome = .error abort ↔ e = .abort abort := by
  cases e <;> simp [Compilation.ofRun]

/-- A scan that a check pulls has succeeded, or it is the last and has interrupted the check. -/
theorem succeeds_of_unfailed {scans : List Scan}
    (h : (finalState (check.run (.ofScans scans))).Unfailed scans) :
    ∀ scan ∈ pulledScans scans, scan.Succeeds := by
  obtain ⟨before, hscans, hbefore⟩ := h
  rwa [pulledScans_eq hscans]

theorem abort_iff_of_failedBy {scans : List Scan} {e : Interrupt} {abort : Abort}
    (h : (finalState (check.run (.ofScans scans))).FailedBy scans e) :
    e = .abort abort ↔ ∃ scan ∈ pulledScans scans, ∃ failure, scan.result = .error failure ∧
      failure.abort? = some abort := by
  obtain ⟨before, failure, lexer, hscans, hbefore, rfl⟩ := h
  have hpulled : pulledScans scans = before ++ [⟨.error failure, lexer⟩] :=
    pulledScans_eq (by rw [List.append_assoc]; exact hscans)
  rw [hpulled, ScanFailure.interrupt_eq_abort_iff]
  constructor
  · exact fun habort => ⟨_, List.mem_append_right _ List.mem_cons_self, failure, rfl, habort⟩
  · rintro ⟨scan, hmem, failure', hresult, habort⟩
    rcases List.mem_append.1 hmem with hmem | hmem
    · obtain ⟨next, hnext⟩ := hbefore scan hmem
      rw [hnext] at hresult
      cases hresult
    · obtain rfl := List.mem_singleton.1 hmem
      cases hresult
      exact habort

/-- A check is aborted exactly if a scan that it pulls is. -/
theorem outcome_eq_error_iff {scans : List Scan} {abort : Abort} :
    (compileScans scans).outcome = .error abort ↔
      ∃ scan ∈ pulledScans scans, ∃ failure, scan.result = .error failure ∧
        failure.abort? = some abort := by
  have hkept := kept_check_open scans
  have hsucceeds := @succeeds_of_unfailed scans
  have hfailed := @abort_iff_of_failedBy scans
  -- Where all scans have succeeded, none of them is aborted.
  have hnone (h : ∀ scan ∈ pulledScans scans, scan.Succeeds) : ¬ ∃ scan ∈ pulledScans scans,
      ∃ failure, scan.result = .error failure ∧ failure.abort? = some abort := by
    rintro ⟨scan, hmem, failure, hresult, -⟩
    obtain ⟨next, hnext⟩ := h scan hmem
    rw [hnext] at hresult
    cases hresult
  rw [compileScans]
  cases hrun : check.run (.ofScans scans) with
  | ok a s =>
    rw [hrun] at hkept hsucceeds
    exact ⟨fun h => (by cases h), fun h => absurd h (hnone (hsucceeds hkept.2))⟩
  | error e s =>
    rw [hrun] at hkept hsucceeds hfailed
    rw [outcome_ofRun_eq_error_iff]
    rcases hkept with ⟨hunfailed, hne⟩ | hfailedBy
    · exact ⟨fun h => absurd h (hne abort), fun h => absurd h (hnone (hsucceeds hunfailed))⟩
    · exact hfailed hfailedBy

end MiniPascal
