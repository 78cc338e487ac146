import Mathlib.Computability.DFA
import MiniPascal.Proofs.Editor.Comments

/-!
# Comments left open

The editor goes through a text line by line, jumps from brace to brace on each line, and hands
nothing but one mark on to the next: whether a comment is left open. Over a whole text these
marks are those of an automaton with two states that reads every character once, newlines
included (`inComment_iff_mem_accepts`).
-/

namespace MiniPascal.Editor

open CommentState

/-- Where a place in a text is: outside of braces or inside. -/
inductive Region
  | outside
  | inside
  deriving DecidableEq, Repr

/-- The automaton of braces: an opening one leads inside, a closing one outside, and nothing
    else leads anywhere. It accepts what ends inside. -/
def braceAutomaton : DFA Char Region where
  step
    | .outside, '\x7b' => .inside
    | .inside, '\x7d' => .outside
    | region, _ => region
  start := .outside
  accept := {.inside}

/-- A text up to the end of the line of an index. -/
def textThrough (text : List Char) (index : Nat) : List Char :=
  ['\n'].intercalate ((text.splitOn '\n').take (index + 1))

/-- The region of a place that has braces open or not. -/
def Region.ofBraces : Bool → Region
  | false => .outside
  | true => .inside

theorem Region.ofBraces_eq_inside_iff {inside : Bool} :
    ofBraces inside = .inside ↔ inside = true := by
  cases inside <;> simp [ofBraces]

theorem braceAutomaton_step (inside : Bool) (c : Char) :
    braceAutomaton.step (.ofBraces inside) c = .ofBraces (braces inside c) := by
  cases inside with
  | false =>
    by_cases h : c = '\x7b'
    · subst h
      rfl
    · simp [braceAutomaton, Region.ofBraces, braces, h]
  | true =>
    by_cases h : c = '\x7d'
    · subst h
      rfl
    · simp [braceAutomaton, Region.ofBraces, braces, h]

/-- A newline is read like any other character that is no brace. -/
theorem inside_step (state : CommentState) (c : Char) :
    (state.step c).inside = braces state.inside c := by
  by_cases h : c = '\n'
  · subst h
    change state.inside = braces state.inside '\n'
    cases state.inside <;> rfl
  · rw [step_of_ne h]

/-- The automaton goes where the braces lead. -/
theorem evalFrom_ofBraces (state : CommentState) (cs : List Char) :
    braceAutomaton.evalFrom (.ofBraces state.inside) cs = .ofBraces (state.after cs).inside := by
  induction cs generalizing state with
  | nil => rfl
  | cons c cs ih =>
    rw [DFA.evalFrom_cons, braceAutomaton_step, ← inside_step, ih, after_cons]

/-- One line leads the automaton from the mark of the line before to its own. -/
theorem ofBraces_of_linePaint {inside : Bool} {line : List Char} {paints : List Paint}
    {isOpen : Bool} (hline : '\n' ∉ line) (h : linePaint inside line = .ok (paints, isOpen)) :
    Region.ofBraces isOpen = braceAutomaton.evalFrom (.ofBraces inside) line := by
  obtain ⟨rfl, -⟩ := comments_of_linePaint hline h
  exact (evalFrom_ofBraces (ofLine inside) line).symm

/-- A newline leads nowhere. -/
theorem evalFrom_newline (inside : Bool) (cs : List Char) :
    braceAutomaton.evalFrom (.ofBraces inside) ('\n' :: cs) =
      braceAutomaton.evalFrom (.ofBraces inside) cs := by
  cases inside <;> rfl

/-- Line by line the automaton comes to the marks of the lines. -/
theorem marks_of_highlightLines {inside : Bool} {text : List Char} {styled : List StyledLine}
    (h : highlightLines inside (text.splitOn '\n') = .ok styled) :
    styled.length = (text.splitOn '\n').length ∧ ∀ index line, styled[index]? = some line →
      Region.ofBraces line.inComment =
        braceAutomaton.evalFrom (.ofBraces inside) (textThrough text index) := by
  induction text using lines_induction generalizing inside styled with
  | single first hfirst =>
    simp only [textThrough, List.splitOn_eq_singleton hfirst] at h ⊢
    obtain ⟨paints, isOpen, rest, hpaint, hrest, rfl⟩ := highlightLines_cons_eq_ok_iff.1 h
    cases hrest
    refine ⟨rfl, fun index line hline => ?_⟩
    cases index with
    | zero =>
      cases hline
      rw [List.take_succ_cons, List.take_zero, List.intercalate_singleton]
      exact ofBraces_of_linePaint hfirst hpaint
    | succ index => cases hline
  | cons first rest hfirst ih =>
    simp only [textThrough, List.splitOn_append_cons_self_of_not_mem hfirst] at h ⊢
    obtain ⟨paints, isOpen, styled, hpaint, hrest, rfl⟩ := highlightLines_cons_eq_ok_iff.1 h
    obtain ⟨hlength, hmarks⟩ := ih hrest
    have hmark := ofBraces_of_linePaint hfirst hpaint
    refine ⟨congrArg (· + 1) hlength, fun index line hline => ?_⟩
    cases index with
    | zero =>
      cases hline
      rwa [List.take_succ_cons, List.take_zero, List.intercalate_singleton]
    | succ index =>
      -- A newline joins the lines from here on to the first one.
      have hne : (rest.splitOn '\n').take (index + 1) ≠ [] := by
        simp [List.splitOn_ne_nil]
      rw [List.take_succ_cons, List.intercalate_cons_of_ne_nil hne, List.append_assoc,
        DFA.evalFrom_of_append, ← hmark, List.singleton_append, evalFrom_newline,
        hmarks index line hline, textThrough]

/-- The editor marks a line of a text as leaving a comment open if and only if the automaton of
    braces ends inside, after the text up to the end of that line. -/
theorem inComment_iff_mem_accepts {text : String} {lines : List StyledLine}
    (h : highlight text = .ok lines) :
    lines.length = (text.toList.splitOn '\n').length ∧
      ∀ index line, lines[index]? = some line →
        (line.inComment = true ↔ textThrough text.toList index ∈ braceAutomaton.accepts) := by
  obtain ⟨hlength, hmarks⟩ := marks_of_highlightLines h
  refine ⟨hlength, fun index line hline => ?_⟩
  rw [DFA.mem_accepts, ← Region.ofBraces_eq_inside_iff, hmarks index line hline]
  rfl

/-- A comment goes on over an empty line to the brace that closes it, which another comment
    adjoins; and a third one begins right behind a brace that closes nothing. -/
theorem inComment_adjacent_braces :
    highlight "\x7b\n\n\x7d\x7b\x7d\n\x7d\x7b" = .ok
      [⟨[⟨0, 1, commentStyle⟩], true⟩, ⟨[], true⟩, ⟨[⟨0, 3, commentStyle⟩], false⟩,
        ⟨[⟨0, 1, groupStyle .unknown⟩, ⟨1, 1, commentStyle⟩], true⟩] ∧
      textThrough "\x7b\n\n\x7d\x7b\x7d\n\x7d\x7b".toList 2 ∉ braceAutomaton.accepts ∧
      textThrough "\x7b\n\n\x7d\x7b\x7d\n\x7d\x7b".toList 3 ∈ braceAutomaton.accepts := by
  have hlines : highlight "\x7b\n\n\x7d\x7b\x7d\n\x7d\x7b" = .ok
      [⟨[⟨0, 1, commentStyle⟩], true⟩, ⟨[], true⟩, ⟨[⟨0, 3, commentStyle⟩], false⟩,
        ⟨[⟨0, 1, groupStyle .unknown⟩, ⟨1, 1, commentStyle⟩], true⟩] := by
    decide +kernel
  obtain ⟨-, hmarks⟩ := inComment_iff_mem_accepts hlines
  exact ⟨hlines, fun haccepts => Bool.false_ne_true ((hmarks 2 _ rfl).2 haccepts),
    (hmarks 3 _ rfl).1 rfl⟩

end MiniPascal.Editor
