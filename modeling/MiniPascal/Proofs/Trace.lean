import MiniPascal.Proofs.Parser.Check
import MiniPascal.Proofs.Parser.Scanned
import MiniPascal.Proofs.Parser.Simulation

/-!
# The trace of a check and the tokens of its text

There are two ways to draw on the stream of a text. Its tokens are scanned all at once
(`tokenize`), while a check pulls them one by one, each when the one before it has been moved
past. They agree (`trace_agrees`): the scans that a check logs are the first rows of the
tokens, in order, and the end of the text only after the last of them; and a lexical fault
that ends the check is the one that ends the tokens.

Halfway through, the rows are those logged so far and those of the stream that is left
(`Midway`).
-/

namespace MiniPascal

open Parsing

/-- The event that reports a row. -/
def Event.ofRow : Nat × Token → Event
  | (line, token) => .scanned line (some token)

/-! ### Logs of tokens -/

namespace Tokenization

variable {tokens : Tokenization}

theorem log_eq (tokens : Tokenization) : tokens.log = tokens.rows.map Event.ofRow ++
    if tokens.failure.isNone then [.scanned tokens.lexer.line none] else [] := rfl

/-- The first events of the log of tokens report the first rows, and the end of the text once
    all rows are reported. -/
theorem take_log (tokens : Tokenization) {k : Nat} (hk : k ≤ tokens.log.length) :
    tokens.log.take k = (tokens.rows.take k).map Event.ofRow ++
      if tokens.rows.length < k then [.scanned tokens.lexer.line none] else [] := by
  have hrows : (tokens.rows.map Event.ofRow).take k = (tokens.rows.take k).map Event.ofRow :=
    List.map_take.symm
  rw [log_eq, List.length_append, List.length_map] at hk
  rw [log_eq, List.take_append, hrows, List.length_map]
  by_cases hlt : tokens.rows.length < k
  · -- The log is longer than the rows by the end of the text alone.
    cases hfailure : tokens.failure with
    | none =>
      have hend : 1 ≤ k - tokens.rows.length := by omega
      rw [if_pos hlt, Option.isNone_none, if_pos rfl]
      exact congrArg _ (List.take_of_length_le hend)
    | some failure =>
      rw [hfailure] at hk
      exact absurd hlt (Nat.not_lt_of_le hk)
  · rw [if_neg hlt, Nat.sub_eq_zero_of_le (Nat.le_of_not_lt hlt), List.take_zero]

theorem length_log_of_none (h : tokens.failure = none) :
    tokens.log.length = tokens.rows.length + 1 := by
  rw [log_eq, h, List.length_append, List.length_map]
  rfl

theorem length_log_of_some {failure : ScanFailure} (h : tokens.failure = some failure) :
    tokens.log.length = tokens.rows.length := by
  rw [log_eq, h, List.length_append, List.length_map]
  rfl

theorem failure_eq_none_of_lt (h : tokens.rows.length < tokens.log.length) :
    tokens.failure = none := by
  cases hfailure : tokens.failure with
  | none => rfl
  | some failure =>
    rw [length_log_of_some hfailure] at h
    exact absurd h (Nat.lt_irrefl _)

end Tokenization

/-! ### Pulling the tokens -/

namespace Parsing

/-- The tokens of a stream are those that a parser has logged and those that it has still to
    pull. -/
def Midway (tokens : Tokenization) (s : Parser) : Prop :=
  ∃ lexer before, lexer.line = s.line ∧ scanEvents s.log.toList = before.map Event.ofRow ∧
    tokens = { Tokenization.ofScans lexer s.pending with
      rows := before ++ (Tokenization.ofScans lexer s.pending).rows }

/-- The scans that a parser has logged are the first of the tokens, and a lexical fault is the
    one that ends them. A parser that looks at no token has logged them all. -/
def traceAssertion (tokens : Tokenization) : Assertion where
  holds s :=
    match s.look with
    | some _ => Midway tokens s
    | none => tokens.failure = none ∧ scanEvents s.log.toList = tokens.log
  stops e s := scanEvents s.log.toList <+: tokens.log ∧
    ∀ cause line, e = .fault ⟨.lexical cause, line⟩ →
      tokens.fault? = some ⟨.lexical cause, line⟩ ∧ scanEvents s.log.toList = tokens.log

variable {tokens : Tokenization} {s : Parser}

theorem Midway.begins (h : Midway tokens s) : scanEvents s.log.toList <+: tokens.log := by
  obtain ⟨lexer, before, -, hevents, rfl⟩ := h
  rw [hevents, Tokenization.log_eq, List.map_append, List.append_assoc]
  exact List.prefix_append _ _

theorem Midway.move (h : Midway tokens s) : (traceAssertion tokens).Kept (move.run s) := by
  have hbegins := h.begins
  obtain ⟨lexer, before, hline, hevents, htokens⟩ := h
  refine Assertion.kept_move (fun hpending => ?_) (fun next after pending hpending => ?_)
    (fun failure after pending hpending => ?_) <;> rw [hpending] at htokens
  · refine ⟨congrArg Tokenization.failure htokens, ?_⟩
    rw [scanEvents_atNext, hevents, ← hline, htokens]
    simp [Tokenization.log_eq, Tokenization.ofScans]
  · cases next with
    | none =>
      refine ⟨congrArg Tokenization.failure htokens, ?_⟩
      rw [scanEvents_atNext, hevents, htokens]
      simp [Tokenization.log_eq, Tokenization.ofScans]
    | some token =>
      refine ⟨after, before ++ [(after.line, token)], rfl, ?_, ?_⟩
      · rw [scanEvents_atNext, hevents, List.map_append]
        rfl
      · simp [htokens, Tokenization.ofScans, atNext]
  · refine ⟨hbegins, fun cause line he => ?_⟩
    cases failure <;> cases he
    refine ⟨congrArg Tokenization.fault? htokens, ?_⟩
    change scanEvents s.log.toList = tokens.log
    rw [hevents, htokens]
    simp [Tokenization.log_eq, Tokenization.ofScans]

theorem begins_of_holds (h : (traceAssertion tokens).holds s) :
    scanEvents s.log.toList <+: tokens.log := by
  simp only [traceAssertion] at h
  split at h
  · exact h.begins
  · exact h.2 ▸ List.prefix_rfl

/-- All operations of a parser keep to the tokens of its stream. -/
def traceInvariant (tokens : Tokenization) : ScanInvariant where
  toAssertion := traceAssertion tokens
  same {s s'} h hs := by
    simp only [traceAssertion, h.look, h.events] at hs ⊢
    split at hs
    · obtain ⟨lexer, before, hline, hevents, htokens⟩ := hs
      exact ⟨lexer, before, hline.trans h.line.symm, h.events.trans hevents, h.pending ▸ htokens⟩
    · exact hs
  moves s token hlook hs := by
    simp only [traceAssertion, hlook] at hs
    exact hs.move
  failsSyntax _ hs := ⟨begins_of_holds hs, by rintro _ _ ⟨⟩⟩
  failsSemantic _ hs := ⟨begins_of_holds hs, by rintro _ _ ⟨⟩⟩
  failsTooDeep hs := ⟨begins_of_holds hs, by rintro _ _ ⟨⟩⟩
  aborts _ hs := ⟨begins_of_holds hs, by rintro _ _ ⟨⟩⟩

/-- A check keeps to the tokens of its text. -/
theorem kept_check_trace (text : String) :
    (traceAssertion (tokenize text)).Kept (check.run (.ofScans (Lexer.ofText text).scans)) := by
  refine (traceInvariant _).toScoped.kept_check (Midway.move ⟨Lexer.ofText text, [], rfl, rfl, ?_⟩)
  rfl

theorem look_of_run_check {scans : List Scan} (h : check.run (.ofScans scans) = .ok () s) :
    s.look = none := by
  rcases run_check scans with ⟨s₀, -, hrun⟩ | ⟨failure, line, s₀, -, hrun⟩
  · exact look_of_run_parse (hrun ▸ h)
  · rw [hrun] at h
    cases failure <;> cases h

end Parsing

theorem log_compileScans (scans : List Scan) :
    (compileScans scans).log = (finalState (check.run (.ofScans scans))).log.toList := by
  rw [compileScans]
  cases check.run (.ofScans scans) with
  | ok _ s => rfl
  | error e s => cases e <;> rfl

/-! ### The trace of a text -/

/-- A log is shown whole at the level that shows the scans. -/
theorem Level.lines_debug (log : List Event) : Level.debug.lines log = log.map Event.text := by
  rw [lines, List.filter_eq_self.2]
  exact fun _ _ => rfl

/-- The scans that a check logs are the first that are logged with the tokens of the text. -/
theorem scanEvents_compile_begins (text : String) :
    scanEvents (compile text).log <+: (tokenize text).log := by
  have hkept := kept_check_trace text
  rw [compile, log_compileScans]
  generalize check.run (.ofScans (Lexer.ofText text).scans) = r at hkept ⊢
  cases r with
  | ok _ s => exact begins_of_holds hkept
  | error e s => exact hkept.1

/-- A lexical fault ends the check with all tokens logged, and ends the tokens. -/
theorem fault?_tokenize_of_compile {text : String} {cause : LexicalCause} {line : Option Int}
    (h : (compile text).fault? = some ⟨.lexical cause, line⟩) :
    (tokenize text).fault? = some ⟨.lexical cause, line⟩ ∧
      scanEvents (compile text).log = (tokenize text).log := by
  have hkept := kept_check_trace text
  rcases fault?_compileScans_iff.1 h with ⟨s, hrun⟩ | ⟨_, -, hdeep⟩
  · rw [compile, log_compileScans]
    rw [hrun] at hkept ⊢
    exact hkept.2 cause line rfl
  · cases hdeep

/-- A text that is accepted has all its tokens logged, and nothing ends them but its end. -/
theorem failure_tokenize_of_accepts {text : String} (h : (compile text).Accepts) :
    (tokenize text).failure = none ∧ scanEvents (compile text).log = (tokenize text).log := by
  have hkept := kept_check_trace text
  obtain ⟨s, hrun⟩ := accepts_compileScans_iff.1 h
  rw [compile, log_compileScans]
  rw [hrun] at hkept ⊢
  simp only [Assertion.Kept, traceAssertion, look_of_run_check hrun] at hkept
  exact hkept

/-- The lines that a check logs for its scans are those of the first rows of the tokens, and
    then at most one for the end of the text, which comes only after all rows and if no failure
    ends them. A lexical fault of the check is that of the tokens, and is found after all rows;
    and a text is accepted only after all rows and the end of the text. -/
theorem trace_agrees (text : String) :
    ∃ n ≤ (tokenize text).rows.length, ∃ ends : Bool,
      Level.debug.lines (scanEvents (compile text).log) =
        ((tokenize text).rows.take n).map
            (fun (line, token) => s!"line {line}: {token.kind.name} {token.text}") ++
          (if ends then [s!"line {(tokenize text).lexer.line}: EOF None"] else []) ∧
      (ends → n = (tokenize text).rows.length ∧ (tokenize text).failure = none) ∧
      (∀ cause line, (compile text).fault? = some ⟨.lexical cause, line⟩ →
        (tokenize text).fault? = some ⟨.lexical cause, line⟩ ∧
          n = (tokenize text).rows.length) ∧
      ((compile text).Accepts → (tokenize text).failure = none ∧
        n = (tokenize text).rows.length ∧ ends) := by
  have hbegins := scanEvents_compile_begins text
  have hlexical {cause line} := @fault?_tokenize_of_compile text cause line
  have haccepts := @failure_tokenize_of_accepts text
  generalize scanEvents (compile text).log = events at *
  generalize tokenize text = tokens at *
  refine ⟨min events.length tokens.rows.length, Nat.min_le_right _ _,
    decide (tokens.rows.length < events.length), ?_, ?_, ?_, ?_⟩
  · have hlines := congrArg Level.debug.lines (List.prefix_iff_eq_take.1 hbegins)
    rw [Tokenization.take_log _ hbegins.length_le] at hlines
    rw [hlines, Level.lines_debug, List.map_append, List.map_map, ← List.take_eq_take_min]
    refine congrArg₂ (· ++ ·) rfl ?_
    by_cases hlt : tokens.rows.length < events.length
    · rw [if_pos hlt, if_pos (decide_eq_true hlt)]
      rfl
    · rw [if_neg hlt, if_neg (by simpa using hlt), List.map_nil]
  · intro hends
    have hlt := of_decide_eq_true hends
    exact ⟨Nat.min_eq_right (Nat.le_of_lt hlt),
      Tokenization.failure_eq_none_of_lt (Nat.lt_of_lt_of_le hlt hbegins.length_le)⟩
  · intro cause line h
    obtain ⟨hfault, rfl⟩ := hlexical h
    obtain ⟨failure, hfailure, -⟩ := Option.bind_eq_some_iff.1 hfault
    exact ⟨hfault, Nat.min_eq_right (Tokenization.length_log_of_some hfailure).ge⟩
  · intro h
    obtain ⟨hfailure, rfl⟩ := haccepts h
    have hlength := Tokenization.length_log_of_none hfailure
    exact ⟨hfailure, Nat.min_eq_right (by omega), decide_eq_true (by omega)⟩

end MiniPascal
