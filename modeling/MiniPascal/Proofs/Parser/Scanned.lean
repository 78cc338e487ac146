import MiniPascal.Proofs.Parser.Invariant

/-!
# What a parser has scanned

How far a parser has come in its stream is a matter of the scans it has pulled: the token it
looks at, the line it has reached and the scans in its log. The symbol table has no part in
it, so an assertion on that alone is kept by every operation on the table. A
`ScanInvariant` is such an assertion, with the laws of the operations that are left.
-/

namespace MiniPascal

open Parsing

/-- The events of a log that report scans. -/
def scanEvents (log : List Event) : List Event :=
  log.filter (·.level = .debug)

theorem scanEvents_atNext (s : Parser) (next : Option Token) (line : Nat) (pending : List Scan) :
    scanEvents (atNext s next line pending).log.toList =
      scanEvents s.log.toList ++ [.scanned line next] := by
  simp [scanEvents, atNext, Event.level]

/-! ### Operations of the symbol table -/

namespace SymbolTable

variable (table : SymbolTable)

theorem scanEvents_enter (hint : Option String) : scanEvents (table.enter hint).log = [] := by
  rw [enter]
  split <;> rfl

theorem scanEvents_leave : scanEvents table.leave.log = [] := by
  rw [leave]
  split <;> rfl

theorem scanEvents_declare (name : String) (ty : Ty) (line : Option Int) :
    scanEvents (table.declare name ty line).log = [] := by
  rw [declare]
  split
  · rfl
  · split <;> rfl

theorem scanEvents_lookup (name : String) : scanEvents (table.lookup name).log = [] := by
  rw [lookup]
  split <;> rfl

end SymbolTable

/-! ### Assertions on scans -/

/-- Two parsers have come equally far in one stream, whatever their symbol tables. -/
structure Parser.SameScans (s s' : Parser) : Prop where
  pending : s'.pending = s.pending
  look : s'.look = s.look
  line : s'.line = s.line
  events : scanEvents s'.log.toList = scanEvents s.log.toList

namespace Parsing

variable {α : Type}

/-- An assertion on what a parser has scanned that is kept from token to token. -/
structure ScanInvariant extends Assertion where
  same {s s' : Parser} : s.SameScans s' → holds s → holds s'
  moves : toAssertion.KeepsLooking move
  failsSyntax {s : Parser} (expectation : Expectation) : holds s →
    stops (.fault ⟨.syntactic expectation s.look, some s.line⟩) s
  failsSemantic {s : Parser} (cause : SemanticCause) : holds s →
    stops (.fault ⟨.semantic cause, some s.line⟩) s
  failsTooDeep {s : Parser} : holds s → stops .tooDeep s
  aborts {s : Parser} (abort : Abort) : holds s → stops (.abort abort) s

namespace ScanInvariant

open Assertion

variable {I : ScanInvariant}

theorem kept_onSymbols {operation : SymbolTable → SymbolTable.Response α} {s : Parser}
    (hlog : scanEvents (operation s.symbols).log = [])
    (hline : ∀ name line, (operation s.symbols).result = .error (.redeclared name line) →
      line = some ↑s.line) (hs : I.holds s) : I.Kept ((onSymbols operation).run s) := by
  have hanswered : I.holds (answered s (operation s.symbols)) := by
    refine I.same (s := s) ⟨rfl, rfl, rfl, ?_⟩ hs
    simp only [scanEvents] at hlog
    simp [scanEvents, answered, hlog]
  cases hr : (operation s.symbols).result with
  | ok a =>
    rw [run_onSymbols_ok hr]
    exact hanswered
  | error refusal =>
    rw [run_onSymbols_error hr]
    cases refusal with
    | redeclared name line =>
      obtain rfl := hline name line hr
      exact I.failsSemantic (.redeclared name) hanswered
    | noScopeToLeave => exact I.aborts .noScopeToLeave hanswered
    | noScopeOpen => exact I.aborts .noScopeOpen hanswered

theorem keeps_enterScope (hint : Option String) : I.Keeps (enterScope hint) := by
  refine Keeps.bind (fun s => kept_onSymbols (s.symbols.scanEvents_enter hint) ?_)
    fun _ => keeps_pure ()
  intro name line hr
  rw [SymbolTable.enter] at hr
  split at hr <;> cases hr

theorem keeps_leaveScope : I.Keeps leaveScope := by
  refine fun s => kept_onSymbols s.symbols.scanEvents_leave ?_
  intro name line hr
  rw [SymbolTable.leave] at hr
  split at hr <;> cases hr

theorem keeps_declare (name : String) (ty : Ty) : I.Keeps (declare name ty) := by
  intro s hs
  rw [run_declare]
  refine Kept.bind (kept_onSymbols (s.symbols.scanEvents_declare name ty _) ?_ hs)
    fun _ => keeps_pure ()
  intro name' line hr
  rw [SymbolTable.declare] at hr
  split at hr
  · cases hr
  · split at hr <;> cases hr
    rfl

theorem keeps_lookup (name : String) : I.Keeps (lookup name) := by
  refine Keeps.bind (fun s => kept_onSymbols (s.symbols.scanEvents_lookup name) ?_) fun entry => ?_
  · intro name line hr
    rw [SymbolTable.lookup] at hr
    split at hr <;> cases hr
  · cases entry with
    | none => exact fun s hs => I.failsSemantic (.undeclared name) hs
    | some entry => exact keeps_pure _

/-- What a parser has scanned is kept by all operations. -/
def toScoped (I : ScanInvariant) : ScopedInvariant where
  toAssertion := I.toAssertion
  moves := I.moves
  looksUp := keeps_lookup
  failsSyntax := I.failsSyntax
  failsSemantic := I.failsSemantic
  failsTooDeep := I.failsTooDeep
  enters := keeps_enterScope
  leaves := keeps_leaveScope
  declares name type := keeps_declare name type.ty

end ScanInvariant

end Parsing

end MiniPascal
