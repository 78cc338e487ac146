import MiniPascal.Proofs.Parser.Resemblance

/-!
# Layout

What stands between the lexemes of a text has no part in what becomes of it. Two texts with
the same tokens, which end for the same reason, are accepted with symbol tables that are the
same but for the lines, or are rejected for the same cause, or are aborted alike
(`layout_independent`). How far apart the lexemes are, on which lines, and what the comments
between them say, only shows in the lines of faults and entries.
-/

namespace MiniPascal

/-- A symbol table without its lines. -/
def SymbolTable.withoutLines (table : SymbolTable) : SymbolTable :=
  { table with
    scopes := table.scopes.map fun scope =>
      { scope with entries := scope.entries.map fun entry => { entry with line := none } }
    entries := table.entries.map fun entry => { entry with line := none } }

/-- Outcomes are the same but for the lines in them. -/
inductive SameButLines : Except Abort Verdict → Except Abort Verdict → Prop
  | accepted {table table' : SymbolTable} : table.withoutLines = table'.withoutLines →
    SameButLines (.ok (.accepted table)) (.ok (.accepted table'))
  | rejected {fault fault' : Fault} : fault.cause = fault'.cause →
    SameButLines (.ok (.rejected fault)) (.ok (.rejected fault'))
  | aborted (abort : Abort) : SameButLines (.error abort) (.error abort)

namespace Resemblance

/-- Tokens are alike if they are the same, and all lines are alike. -/
def layout : Resemblance where
  left := ⟨id, fun _ => none, Function.injective_id⟩
  right := ⟨id, fun _ => none, Function.injective_id⟩
  total name := ⟨name, rfl⟩
  tokens := Eq
  kind := congrArg Token.kind
  name h _ := congrArg Token.text h

theorem sameButLines_of_outcomes {outcome outcome' : Except Abort Verdict}
    (h : layout.Outcomes outcome outcome') : SameButLines outcome outcome' := by
  cases h with
  | accepted htables => exact .accepted htables
  | rejected hfaults => exact .rejected (hfaults.cause.eq rfl rfl)
  | aborted abort => exact .aborted abort

end Resemblance

/-- The tokens of a text, and what ends them, decide on the outcome of its check but for the
    lines. -/
theorem layout_independent {text text' : String}
    (htokens : (tokenize text).rows.map Prod.snd = (tokenize text').rows.map Prod.snd)
    (hfailure : (tokenize text).failure = (tokenize text').failure) :
    SameButLines (compile text).outcome (compile text').outcome := by
  have hrows : List.Forall₂ Resemblance.layout.Rows (tokenize text).rows (tokenize text').rows := by
    rw [← List.forall₂_eq_eq_eq, List.forall₂_map_left_iff,
      List.forall₂_map_right_iff] at htokens
    exact htokens.imp fun _ _ htoken => ⟨rfl, htoken⟩
  exact Resemblance.sameButLines_of_outcomes
    (Resemblance.outcomes_compile ⟨hrows, hfailure, rfl⟩ rfl)

/-- Comments and line breaks move an entry to another line and do nothing else. -/
theorem layout_independent_of_comments :
    (tokenize "program int: a; begin a = a end").rows.map Prod.snd =
        (tokenize "program int:\x7b\n\x7da;begin%\na=a end").rows.map Prod.snd ∧
      (tokenize "program int: a; begin a = a end").failure =
        (tokenize "program int:\x7b\n\x7da;begin%\na=a end").failure ∧
      SameButLines (compile "program int: a; begin a = a end").outcome
        (compile "program int:\x7b\n\x7da;begin%\na=a end").outcome := by
  have htokens : (tokenize "program int: a; begin a = a end").rows.map Prod.snd =
      (tokenize "program int:\x7b\n\x7da;begin%\na=a end").rows.map Prod.snd := by
    decide +kernel
  have hfailure : (tokenize "program int: a; begin a = a end").failure =
      (tokenize "program int:\x7b\n\x7da;begin%\na=a end").failure := by
    decide +kernel
  exact ⟨htokens, hfailure, layout_independent htokens hfailure⟩

end MiniPascal
