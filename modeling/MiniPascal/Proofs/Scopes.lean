import MiniPascal.Proofs.Parser.Check
import MiniPascal.Proofs.Parser.Effect
import MiniPascal.Proofs.Parser.Simulation

/-!
# Scopes and the symbol table of a check

Whatever a statement opens it closes: when a procedure of the parser succeeds, the open scopes
are those from before it, with all that they bind, and only declarations add to the innermost
one (`scopes_framed`).

What is left of the scopes that were opened and closed is in the entries. The table of a text
that is accepted is the elaboration of its program (`elaboration_of_accepted`).
-/

namespace MiniPascal

open Parsing

/-! ### The whole check -/

theorem symbols_of_run_start {scans : List Scan} {s : Parser}
    (h : start.run (.ofScans scans) = .ok () s) : s.symbols = .global := by
  match scans with
  | [] => cases h; rfl
  | ⟨.ok next, lexer⟩ :: scans => cases h; rfl
  | ⟨.error failure, lexer⟩ :: scans =>
    rw [start, run_bind, run_move_error rfl] at h
    cases failure <;> cases h

/-- A check that succeeds ends with the elaboration of the program that it has read, and with
    all scopes closed. -/
theorem elaboration_of_check {scans : List Scan} {s : Parser}
    (h : check.run (.ofScans scans) = .ok () s) : s.symbols.scopes = [] ∧
      ∃ p : Program, p.Derives (Scan.tokens scans) ∧
        s.symbols.entries.toList.map Entry.declaration = p.elaboration := by
  rw [check, run_bind] at h
  rcases run_start scans with ⟨s₀, hstart, hs₀⟩ | ⟨failure, line, s₀, -, hstart⟩
  · rw [hstart, bind_ok] at h
    obtain ⟨u, hu, p, hp, t₁, t₂, htakes, hnotes, hsymbols⟩ := does_parse nestingBudget s₀ () s h
    have hahead : s.ahead = [] := by rw [Parser.ahead, look_of_run_parse h]
    have htokens : Scan.tokens scans = u := by
      rw [← hs₀.ahead, hu.ahead, hahead, List.append_nil]
    rw [symbols_of_run_start hstart] at htakes
    obtain ⟨hscopes, hentries⟩ := SymbolTable.elaboration_of_notes htakes hnotes
    rw [hsymbols]
    exact ⟨hscopes, p, by rw [Program.Derives, htokens, hp], hentries⟩
  · rw [hstart] at h
    cases failure <;> cases h

/-- The table of a text that is accepted is that of a check that succeeds. -/
theorem run_check_of_accepted {text : String} {table : SymbolTable}
    (h : (compile text).outcome = .ok (.accepted table)) :
    ∃ s, check.run (.ofScans (Lexer.ofText text).scans) = .ok () s ∧ s.symbols = table := by
  rw [compile, compileScans] at h
  cases hr : check.run (.ofScans (Lexer.ofText text).scans) with
  | ok _ s =>
    rw [hr] at h
    cases h
    exact ⟨s, rfl, rfl⟩
  | error e s =>
    rw [hr] at h
    cases e <;> cases h

theorem declarations_of_accepted {text : String} {table : SymbolTable}
    (h : (compile text).outcome = .ok (.accepted table)) :
    ∃ p : Program, p.Derives ((tokenize text).rows.map Prod.snd) ∧
      table.entries.toList.map Entry.declaration = p.elaboration := by
  obtain ⟨s, hrun, rfl⟩ := run_check_of_accepted h
  rw [tokenize, Lexer.tokenization, Tokenization.rows_ofScans]
  exact (elaboration_of_check hrun).2

/-- The table of a text that is accepted holds the elaboration of its program: an entry for each
    name where it is declared, in the order of the text, with its type, its scope and its level.
    -/
theorem elaboration_of_accepted {text : String} {table : SymbolTable}
    (h : (compile text).outcome = .ok (.accepted table)) :
    Derivable ((tokenize text).rows.map Prod.snd) ∧
      ∀ p : Program, p.Derives ((tokenize text).rows.map Prod.snd) →
        table.entries.toList.map Entry.declaration = p.elaboration := by
  obtain ⟨p, hp, hentries⟩ := declarations_of_accepted h
  exact ⟨⟨p, hp⟩, fun q hq =>
    hentries.trans (Program.elaboration_congr (hp.symm.trans hq))⟩

/-- The bodies of a program are numbered as they begin, the inner ones among the outer ones. -/
theorem elaboration_nested_bodies : ∃ table, (compile
    "program int: x; begin if 1>0 then while 1>0 do int: x; x=1 end else char: x; x=x end end"
    ).outcome = .ok (.accepted table) ∧ table.entries.toList.map Entry.declaration =
      [⟨"x", .int, "global", 0⟩, ⟨"x", .int, "while_body#2", 2⟩, ⟨"x", .char, "if_else#3", 1⟩] := by
  have haccepts : (compile
      "program int: x; begin if 1>0 then while 1>0 do int: x; x=1 end else char: x; x=x end end"
      ).Accepts := by decide +kernel
  obtain ⟨table, htable⟩ := haccepts
  obtain ⟨⟨p, hp⟩, hentries⟩ := elaboration_of_accepted htable
  refine ⟨table, htable, ?_⟩
  rw [hentries p hp, p.elaboration_eq, ← hp]
  decide +kernel

/-! ### The frame of procedures -/

/-- From `s` to `s'` a phrase is read, and besides the bodies within it `own` bodies. The open
    scopes are the same, the entries have at most become more, and the counter has gone on by
    the number of the bodies. -/
structure Framed (form : StmtForm) (own : Nat) (s s' : Parser) : Prop where
  scopes : s'.symbols.scopes = s.symbols.scopes
  entries : s.symbols.entries.toList <+: s'.symbols.entries.toList
  counter : ∃ u, s.Passes u s' ∧ (∃ tree : Stmt form, tree.yield = u.map Token.terminal) ∧
    ∀ tree : Stmt form, tree.yield = u.map Token.terminal →
      s'.symbols.counter = s.symbols.counter + (tree.bodyCount + own)

variable {s s' : Parser}

theorem framed_of_notes {form : StmtForm} {own : Nat} {tree : Stmt form} {u : List Token}
    {sites : Nat → List Site} (hopen : s.symbols.scopes ≠ []) (hu : s.Passes u s')
    (htree : tree.yield = u.map Token.terminal) (hnotes : s.symbols.Notes sites s'.symbols)
    (hlength : ∀ level, (sites level).length = tree.bodyCount + own) : Framed form own s s' := by
  obtain ⟨scope, outer, hscopes⟩ := List.exists_cons_of_ne_nil hopen
  obtain ⟨hsame, hcounter, new, hentries, -⟩ := hnotes outer.length (by rw [hscopes]; rfl)
  refine ⟨hsame, ⟨new, hentries.symm⟩, u, hu, ⟨tree, htree⟩, fun tree' htree' => ?_⟩
  rw [hcounter, hlength, Stmt.bodyCount_congr (htree.trans htree'.symm)]

theorem framed_of_noting {form : StmtForm} {m : Parsing Unit} (h : Does (.noting form) m)
    (hopen : s.symbols.scopes ≠ []) (hrun : m.run s = .ok () s') : Framed form 0 s s' := by
  obtain ⟨u, hu, tree, htree, hnotes⟩ := h s () s' hrun
  exact framed_of_notes hopen hu htree hnotes fun level => tree.length_sites level

theorem framed_of_notingBody {hint : String} {m : Parsing Unit} (h : Does (.notingBody hint) m)
    (hopen : s.symbols.scopes ≠ []) (hrun : m.run s = .ok () s') : Framed .body 1 s s' := by
  obtain ⟨u, hu, tree, htree, hnotes⟩ := h s () s' hrun
  refine framed_of_notes hopen hu htree hnotes fun level => ?_
  rw [List.length_cons, Stmt.length_sites]

/-- What declarations do to the innermost scope: it goes on with new entries, which are added to
    those of the table, and nothing else is changed. -/
def Declares (s s' : Parser) : Prop :=
  ∀ scope outer, s.symbols.scopes = scope :: outer → ∃ scope' new, scope.Extends scope' new ∧
    s'.symbols.scopes = scope' :: outer ∧
    s'.symbols.entries.toList = s.symbols.entries.toList ++ new ∧
    s'.symbols.counter = s.symbols.counter

theorem declares_of_takes {declared : String → Nat → List Declaration}
    (h : s.symbols.Takes declared s'.symbols) : Declares s s' := by
  intro scope outer hscopes
  obtain ⟨scope', new, hextends, hscopes', hentries, hcounter, -⟩ := h scope outer hscopes
  exact ⟨scope', new, hextends, hscopes', hentries, hcounter⟩

/-- An expression procedure leaves the symbol table alone. -/
theorem symbols_of_run_expr {m : Parsing Ty → Parsing Ty} {budget : Nat} {ty : Ty}
    (hm : m ∈ [condition, expression, simpleExpr, term, factorA, factor])
    (hrun : (m (parenthesized budget)).run s = .ok ty s') : s'.symbols = s.symbols := by
  refine symbols_of_spares (fun t => ?_) hrun
  have hinner := spares_parenthesized budget t
  simp only [List.mem_cons, List.not_mem_nil, or_false] at hm
  rcases hm with rfl | rfl | rfl | rfl | rfl | rfl
  · exact Invariant.keeps_expression hinner
  · exact Invariant.keeps_expression hinner
  · exact Invariant.keeps_simpleExpr hinner
  · exact Invariant.keeps_chain (Invariant.keeps_factorA hinner)
  · exact Invariant.keeps_factorA hinner
  · exact Invariant.keeps_factor hinner

/-- When a procedure of the parser succeeds where a scope is open, an expression has left the
    symbol table alone; a statement, a list of statements or a block has left the open scopes
    alone, with all that they bind, and the entries that were there, and has counted the bodies
    in it; and declarations have added to the innermost scope names that it had not bound. So a
    text is accepted with all scopes closed. -/
theorem scopes_framed :
    (∀ (budget : Nat) (s s' : Parser), s.symbols.scopes ≠ [] →
      (∀ m ∈ [condition, expression, simpleExpr, term, factorA, factor], ∀ ty,
        (m (parenthesized budget)).run s = .ok ty s' → s'.symbols = s.symbols) ∧
      ((stmt (nested budget)).run s = .ok () s' → Framed .stmt 0 s s') ∧
      ((stmtList (nested budget)).run s = .ok () s' → Framed .stmtList 0 s s') ∧
      (∀ hint, (block (nested budget) hint).run s = .ok () s' → Framed .body 1 s s') ∧
      (decl.run s = .ok () s' → Declares s s') ∧
      (declList.run s = .ok () s' → Declares s s')) ∧
    ∀ text table, (compile text).outcome = .ok (.accepted table) → table.depth = 0 := by
  refine ⟨fun budget s s' hopen => ⟨fun m hm ty hrun => symbols_of_run_expr hm hrun,
    framed_of_noting (does_stmt (nestedDoes budget)) hopen,
    framed_of_noting (does_stmtList (nestedDoes budget)) hopen,
    fun hint => framed_of_notingBody (does_block (nestedDoes budget) hint) hopen, ?_, ?_⟩, ?_⟩
  · intro hrun
    obtain ⟨u, -, d, -, htakes⟩ := does_decl s () s' hrun
    exact declares_of_takes htakes
  · intro hrun
    obtain ⟨u, -, decls, -, htakes⟩ := does_declList s () s' hrun
    exact declares_of_takes htakes
  · intro text table h
    obtain ⟨s, hrun, rfl⟩ := run_check_of_accepted h
    rw [SymbolTable.depth, (elaboration_of_check hrun).1, List.length_nil]

/-- A loop leaves the scope around it as it was, though its body hides a name of it. -/
theorem framed_loop : ∃ s s' : Parser, s.symbols.scopes ≠ [] ∧
    (stmt (nested 100)).run s = .ok () s' ∧ Framed .stmt 0 s s' := by
  generalize hs : finalState ((do start; declList : Parsing Unit).run
    (.ofText "int: x; while 1 > 0 do int: x; x = 1 end")) = s
  have hopen : s.symbols.scopes ≠ [] := by
    subst hs
    decide +kernel
  have hends : (match (stmt (nested 100)).run s with
      | .ok _ _ => true
      | .error _ _ => false) = true := by
    subst hs
    decide +kernel
  cases hrun : (stmt (nested 100)).run s with
  | ok _ s' => exact ⟨s, s', hopen, hrun, (scopes_framed.1 100 s s' hopen).2.1 hrun⟩
  | error e s' =>
    rw [hrun] at hends
    cases hends

end MiniPascal
