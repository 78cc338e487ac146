import MiniPascal.Proofs.Lexer.Stream
import MiniPascal.Proofs.Parser.Check
import MiniPascal.Proofs.Parser.Unread

/-!
# Faults of syntax are found as early as can be

A fault of syntax is found at the first token that no program goes on with: the tokens
before it begin a program, and with it they begin none (`fault_earliest`). At the end of
the text the tokens begin a program but are none.

That the tokens before begin a program is the contract of the parser's procedures. That
with the token found they begin none follows from what the check does with a program: the
same scans, and scans of the rest of a program after them, would be checked like the text
up to the token found (`run_check_of_unread`), but a program meets no fault of syntax
(`judges_check`).
-/

namespace MiniPascal

open Parsing

/-- Tokens that begin a program cannot go on as found: with the token found they begin
    none, or they end without being one. -/
def Blocked (before : List Token) : Option Token → Prop
  | some token => ¬ Viable (before ++ [token])
  | none => ¬ Derivable before ∧ ∃ more, more ≠ [] ∧ Derivable (before ++ more)

/-! ### Streams -/

/-- The scans of the given tokens and the end of the text. -/
def Scan.ofTokens (lexer : Lexer) (tokens : List Token) : List Scan :=
  tokens.map (fun token => ⟨.ok (some token), lexer⟩) ++ [⟨.ok none, lexer⟩]

theorem Scan.tokens_append_ofTokens {scans : List Scan} {u v : List Token} (lexer : Lexer)
    (h : Scan.tokens scans = u ++ v) (more : List Token) :
    Scan.tokens (scans.take u.length ++ ofTokens lexer more) = u ++ more ∧
      Scan.failure? (scans.take u.length ++ ofTokens lexer more) = none := by
  induction u generalizing scans with
  | nil =>
    rw [List.length_nil, List.take_zero]
    induction more with
    | nil => exact ⟨rfl, rfl⟩
    | cons token more ih => exact ⟨congrArg (token :: ·) ih.1, ih.2⟩
  | cons token u ih =>
    match scans, h with
    | ⟨.ok (some next), after⟩ :: scans, h =>
      obtain ⟨rfl, htail⟩ := List.cons.inj h
      obtain ⟨htokens, hfailure⟩ := ih htail
      exact ⟨congrArg (next :: ·) htokens, hfailure⟩

/-- The scans of tokens are not the whole stream of a lexer. -/
theorem Scan.drop_ne_nil {scans before : List Scan} {after : Lexer} {u v : List Token}
    (hends : scans = before ++ [⟨.ok none, after⟩]) (h : Scan.tokens scans = u ++ v) :
    scans.drop u.length ≠ [] := by
  induction u generalizing scans before with
  | nil => rw [hends]; simp
  | cons token u ih =>
    match before, hends with
    | [], hends => rw [hends] at h; cases h
    | ⟨.ok (some next), lexer⟩ :: before, hends =>
      rw [hends] at h ⊢
      exact ih rfl (List.cons.inj h).2
    | ⟨.ok none, lexer⟩ :: before, hends => rw [hends] at h; cases h
    | ⟨.error failure, lexer⟩ :: before, hends => rw [hends] at h; cases h

/-! ### The fault -/

/-- A program is not rejected for its syntax. -/
theorem not_derivable_of_check {scans : List Scan} {expectation : Expectation}
    {found : Option Token} {line : Option Int} {s : Parser}
    (h : check.run (.ofScans scans) = .error (.fault ⟨.syntactic expectation found, line⟩) s)
    (hfailure : Scan.failure? scans = none) : ¬ Derivable (Scan.tokens scans) := by
  rintro ⟨p, hp⟩
  have hjudged := judges_check hp hfailure
  rw [h] at hjudged
  exact hjudged

/-- No program goes on with the token at which a fault of syntax is found. -/
theorem not_viable_of_check {scans before : List Scan} {after : Lexer}
    (hends : scans = before ++ [⟨.ok none, after⟩]) {expectation : Expectation} {token : Token}
    {line : Option Int} {s : Parser}
    (h : check.run (.ofScans scans) = .error (.fault ⟨.syntactic expectation (some token), line⟩) s)
    {u : List Token} (hlook : s.look = some token) (htokens : Scan.tokens scans = u ++ s.ahead)
    (hpulled : scans.length ≤ s.pending.length + (u.length + 1)) :
    ¬ Viable (u ++ [token]) := by
  rintro ⟨more, hmore⟩
  have hsplit : Scan.tokens scans = (u ++ [token]) ++ Scan.tokens s.pending := by
    rw [htokens, Parser.ahead_of_look hlook, List.append_assoc, List.singleton_append]
  obtain ⟨htokens', hfailure'⟩ := Scan.tokens_append_ofTokens after hsplit more
  have hunread : (scans.drop (u ++ [token]).length).length ≤ s.pending.length := by
    rw [List.length_drop, List.length_append, List.length_singleton]
    omega
  -- The text of the program that would go on with the token is checked alike up to it.
  have halike := run_check_of_unread (Scan.ofTokens after more)
    (Scan.drop_ne_nil hends hsplit)
    (rfl : (scans.take (u ++ [token]).length).map Scan.seen = _)
  rw [List.take_append_drop, h] at halike
  replace halike := halike hunread
  generalize scans.take (u ++ [token]).length ++ Scan.ofTokens after more = scans' at *
  cases hrun : check.run (.ofScans scans') with
  | ok _ s' =>
    rw [hrun] at halike
    exact halike
  | error e s' =>
    rw [hrun] at halike
    obtain ⟨rfl, -⟩ := halike
    exact not_derivable_of_check hrun hfailure' (htokens' ▸ hmore)

/-- A fault of syntax is found at the first token that no program goes on with, and at the
    end of the text if the tokens are none but begin one. -/
theorem fault_earliest {text : String} {expectation : Expectation} {found : Option Token}
    {line : Option Int} (h : (compile text).fault? = some ⟨.syntactic expectation found, line⟩)
    (hdeep : expectation ≠ .lessNesting) :
    ¬ Derivable ((tokenize text).rows.map Prod.snd) ∧
      ∃ before rest, (tokenize text).rows.map Prod.snd = before ++ found.toList ++ rest ∧
        scannedTokens (compile text).log = before ++ found.toList ∧
        Viable before ∧ Blocked before found ∧
        (found = none → rest = [] ∧ (tokenize text).failure = none) := by
  rw [tokenize, Lexer.tokenization, Tokenization.rows_ofScans, Tokenization.failure_ofScans]
  simp only [compile] at h ⊢
  obtain ⟨scans₀, after, hends, -⟩ := Lexer.scans_ends (Lexer.ofText text)
  generalize (Lexer.ofText text).scans = scans at h hends ⊢
  rcases fault?_compileScans_iff.1 h with ⟨s, hrun⟩ | ⟨s, -, hfault⟩
  · obtain ⟨before, hviable, htokens, hfailure, rfl, hscanned, hpulled⟩ := viable_of_check hrun
    have hlog : scannedTokens (compileScans scans).log = before ++ s.look.toList := by
      rw [← hscanned, compileScans, hrun]
      rfl
    cases hlook : s.look with
    | some token =>
      rw [hlook] at hrun hlog
      have hblocked := not_viable_of_check hends hrun hlook htokens hpulled
      rw [Parser.ahead_of_look hlook, ← List.singleton_append, ← List.append_assoc] at htokens
      exact ⟨fun hderivable => hblocked ⟨_, htokens ▸ hderivable⟩, before, _, htokens, hlog,
        hviable, hblocked, fun hnone => (by cases hnone)⟩
    | none =>
      rw [hlook] at hrun hlog
      rw [Parser.ahead, hlook, List.append_nil] at htokens
      rw [Parser.failure?, hlook] at hfailure
      have hnot := not_derivable_of_check hrun hfailure
      -- The tokens are those of no program, so what completes them is not nothing.
      obtain ⟨more, hmore⟩ := hviable
      have hproper : more ≠ [] := by
        rintro rfl
        rw [List.append_nil] at hmore
        exact hnot (htokens ▸ hmore)
      refine ⟨hnot, before, [], ?_, hlog, ⟨more, hmore⟩, ⟨htokens ▸ hnot, more, hproper, hmore⟩,
        fun _ => ⟨rfl, hfailure⟩⟩
      rw [htokens, Option.toList_none, List.append_nil, List.append_nil]
  · cases hfault
    exact absurd rfl hdeep

/-- A program needs a statement: the `end` of one without is where its fault is found. -/
theorem blocked_before_end :
    (compile "program begin end").fault? =
        some ⟨.syntactic .statementStart (some (.spelled .kwEnd)), some 1⟩ ∧
      ∃ before, scannedTokens (compile "program begin end").log = before ++ [.spelled .kwEnd] ∧
        Viable before ∧ Blocked before (some (.spelled .kwEnd)) := by
  have hfault : (compile "program begin end").fault? =
      some ⟨.syntactic .statementStart (some (.spelled .kwEnd)), some 1⟩ := by decide +kernel
  obtain ⟨-, before, rest, -, hlog, hviable, hblocked, -⟩ := fault_earliest hfault (by decide)
  exact ⟨hfault, before, hlog, hviable, hblocked⟩

end MiniPascal
