import MiniPascal.Proofs.Parser.Invariant
import MiniPascal.Proofs.Parser.Simulation
import Mathlib.Logic.Relation

/-!
# The states that a parser reaches

All that a procedure of the parser does is done by a few operations (`Parser.Step`): a move to
the next token, to open and to close a scope, to declare a name with a type that a declaration
can give it, and to look one up. A state is `Reached` in the check of a text if such operations
lead to it, so wherever a run of the check comes by, it is at a reached state
(`Parsing.reached_run`, `Parsing.reached_check`).
-/

namespace MiniPascal

open Parsing

/-- An operation that procedures are made of leads from one state to another. -/
inductive Parser.Step : Parser → Parser → Prop
  | move (s : Parser) : Step s (finalState (Parsing.move.run s))
  | enterScope (hint : Option String) (s : Parser) :
    Step s (finalState ((Parsing.enterScope hint).run s))
  | leaveScope (s : Parser) : Step s (finalState (Parsing.leaveScope.run s))
  | declare (name : String) (type : TypeName) (s : Parser) :
    Step s (finalState ((Parsing.declare name type.ty).run s))
  | lookup (name : String) (s : Parser) : Step s (finalState ((Parsing.lookup name).run s))

/-- Operations lead to a state from the beginning of a text. -/
def Parser.Reached (text : String) (s : Parser) : Prop :=
  Relation.ReflTransGen Step (.ofText text) s

/-- What holds in the beginning, and after every operation if before it, holds of all states that
    are reached. -/
theorem Parser.Reached.invariant {text : String} {P : Parser → Prop} (h : P (.ofText text))
    (hstep : ∀ s s', Step s s' → P s → P s') {s : Parser} (hs : s.Reached text) : P s := by
  induction hs with
  | refl => exact h
  | tail _ hlast ih => exact hstep _ _ hlast ih

namespace Parsing

variable {α β : Type}

/-! ### Symbol tables -/

theorem symbols_move (s : Parser) : (finalState (move.run s)).symbols = s.symbols := by
  match hpending : s.pending with
  | [] => rw [run_move_nil hpending]; rfl
  | ⟨.ok next, lexer⟩ :: pending => rw [run_move_ok hpending]; rfl
  | ⟨.error failure, lexer⟩ :: pending =>
    rw [run_move_error hpending, failScan_eq]
    rfl

/-- The table after an operation on it, if what goes on with its result leaves the table alone. -/
theorem symbols_onSymbols_bind {operation : SymbolTable → SymbolTable.Response α}
    {f : α → Parsing β} (hf : ∀ a s, (finalState ((f a).run s)).symbols = s.symbols)
    (s : Parser) : (finalState ((onSymbols operation >>= f).run s)).symbols =
      (operation s.symbols).table := by
  rw [run_bind]
  cases hr : (operation s.symbols).result with
  | ok a =>
    rw [run_onSymbols_ok hr, bind_ok, hf]
    rfl
  | error refusal =>
    rw [run_onSymbols_error hr]
    cases refusal <;> rfl

end Parsing

/-- An operation changes the symbol table only as its own operations do. -/
theorem Parser.Step.symbols {s s' : Parser} (h : Step s s') :
    s'.symbols = s.symbols ∨ (∃ hint, s'.symbols = (s.symbols.enter hint).table) ∨
      s'.symbols = s.symbols.leave.table ∨
      ∃ name, ∃ type : TypeName, ∃ line,
        s'.symbols = (s.symbols.declare name type.ty line).table := by
  cases h with
  | move => exact .inl (symbols_move s)
  | enterScope hint => exact .inr (.inl ⟨hint, symbols_onSymbols_bind (fun _ _ => rfl) s⟩)
  | leaveScope =>
    have hleave : (finalState ((onSymbols (·.leave) >>= pure).run s)).symbols =
        s.symbols.leave.table := symbols_onSymbols_bind (fun _ _ => rfl) s
    rw [bind_pure] at hleave
    exact .inr (.inr (.inl hleave))
  | declare name type =>
    refine .inr (.inr (.inr ⟨name, type, some s.line, ?_⟩))
    rw [run_declare, ← run_bind]
    exact symbols_onSymbols_bind (fun _ _ => rfl) s
  | lookup name =>
    refine .inl ((symbols_onSymbols_bind (fun entry _ => ?_) s).trans
      (SymbolTable.table_lookup s.symbols name))
    cases entry <;> rfl

/-! ### Runs -/

namespace Parsing

variable {α : Type}

/-- That a state is reached is asserted everywhere, also where a run is interrupted. -/
def reachedAssertion (text : String) : Assertion :=
  ⟨fun s => s.Reached text, fun _ s => s.Reached text⟩

variable {text : String}

theorem kept_reached_iff {r : Result α} :
    (reachedAssertion text).Kept r ↔ (finalState r).Reached text := by
  cases r <;> rfl

/-- The operations lead from reached states to reached ones. -/
def reached (text : String) : ScopedInvariant where
  toAssertion := reachedAssertion text
  moves s _ _ hs := kept_reached_iff.2 (.tail hs (.move s))
  looksUp name s hs := kept_reached_iff.2 (.tail hs (.lookup name s))
  failsSyntax _ hs := hs
  failsSemantic _ hs := hs
  failsTooDeep hs := hs
  enters hint s hs := kept_reached_iff.2 (.tail hs (.enterScope hint s))
  leaves s hs := kept_reached_iff.2 (.tail hs (.leaveScope s))
  declares name type s hs := kept_reached_iff.2 (.tail hs (.declare name type s))

/-- A procedure that keeps all that the operations keep leads to a reached state. -/
theorem reached_run {m : Parsing α} (h : (reached text).Keeps m) {s : Parser}
    (hs : s.Reached text) : (finalState (m.run s)).Reached text :=
  kept_reached_iff.1 (h s hs)

/-- The check of a text ends in a reached state, however it ends. -/
theorem reached_check (text : String) :
    (finalState (check.run (.ofText text))).Reached text :=
  kept_reached_iff.1 ((reached text).kept_check (kept_reached_iff.2 (.single (.move _))))

end Parsing

end MiniPascal
