import MiniPascal.Proofs.Parser.Resemblance

/-!
# Texts with the same tokens

A text splits into lexemes as far as its tokens can be shown, and there it ends, or fails to be
scanned (`exists_shown_split`). Two texts that split into the same rows, and both end there or
fail alike, have the same tokens (`agrees_of_splits`), and texts with the same tokens are
checked with the same outcome (`Tokenization.Agrees.outcome`).
-/

namespace MiniPascal

open Lexer

/-! ### Failing -/

/-- A text begins with a numeral too large, which fails a scan. -/
inductive TooLarge : ScanFailure → List Char → Prop
  | num {w rest : List Char} : IsDigits w → NotNext goesOnNumeral rest →
    numeralBound ≤ decimalValue w → TooLarge .oversizedNumeral (w ++ rest)
  | real {w rest : List Char} : IsDigits w → Decimal.ofNat? (decimalValue w) = none →
    TooLarge .realOverflow (w ++ '.' :: rest)

/-- A text begins with what fails a scan, which is noticed so many lines on. -/
inductive Failing : ScanFailure → Nat → List Char → Prop
  | malformed {cause : LexicalCause} {lines : Nat} {text : List Char} :
    Malformed cause lines text → ¬ Oversized text → Failing (.lexical cause) lines text
  | tooLarge {failure : ScanFailure} {text : List Char} : TooLarge failure text →
    Failing failure 0 text

theorem oversized_iff {text : List Char} : Oversized text ↔ ∃ failure, TooLarge failure text := by
  constructor
  · rintro (⟨hw, hrest, hn⟩ | ⟨hw, hn⟩)
    · exact ⟨_, .num hw hrest hn⟩
    · exact ⟨_, .real hw hn⟩
  · rintro ⟨failure, ⟨hw, hrest, hn⟩ | ⟨hw, hn⟩⟩
    · exact .num hw hrest hn
    · exact .real hw hn

theorem Breaks.exists_failing {text : List Char} (h : Breaks text) :
    ∃ failure lines, Failing failure lines text := by
  by_cases hsize : Oversized text
  · obtain ⟨failure, hlarge⟩ := oversized_iff.1 hsize
    exact ⟨failure, 0, .tooLarge hlarge⟩
  · obtain ⟨cause, lines, hmalformed⟩ := h.resolve_right hsize
    exact ⟨_, lines, .malformed hmalformed hsize⟩

theorem TooLarge.scan {failure : ScanFailure} {text : List Char} (h : TooLarge failure text)
    (line : Nat) (words : Words) :
    ∃ after, Lexer.scan ⟨text, line, words⟩ = (.error failure, after) ∧ after.line = line := by
  cases h with
  | @num w rest hw hrest hn =>
    refine ⟨⟨rest, line, words⟩, ?_, rfl⟩
    rw [scan_of_isDigits hw, scanNumber_num hw hrest, if_neg (Nat.not_lt.2 hn)]
    rfl
  | @real w rest hw hn =>
    refine ⟨⟨'.' :: rest, line, words⟩, ?_, rfl⟩
    rw [scan_of_isDigits hw, scanNumber_real hw, hn]
    rfl

theorem Failing.scan {failure : ScanFailure} {lines : Nat} {text : List Char}
    (h : Failing failure lines text) (line : Nat) (words : Words) :
    ∃ after, Lexer.scan ⟨text, line, words⟩ = (.error failure, after) ∧
      after.line = line + lines := by
  cases h with
  | malformed hmalformed hsize => exact scan_malformed hmalformed hsize line words
  | tooLarge hlarge => exact hlarge.scan line words

/-- Every text splits as far as its tokens can be shown, and there it ends or fails. -/
theorem exists_shown_split (line : Nat) (text : List Char) : ∃ rows line' rest,
    Split line text rows line' rest ∧ Shown rows ∧
      (Ending rest ∨ ∃ failure lines, Failing failure lines rest) := by
  obtain ⟨rows, line', rest, hsplit, hrest⟩ := exists_split line text
  induction hsplit with
  | @trivia line t rest ht =>
    exact ⟨[], _, rest, .trivia ht, List.forall_mem_nil _, hrest.imp_right (·.exists_failing)⟩
  | @lexeme line line' t w rest rest' token rows ht hlexeme _ ih =>
    by_cases hsize : Oversized (w ++ rest)
    · obtain ⟨failure, hlarge⟩ := oversized_iff.1 hsize
      exact ⟨[], _, w ++ rest, .trivia ht, List.forall_mem_nil _,
        .inr ⟨failure, 0, .tooLarge hlarge⟩⟩
    · obtain ⟨shown, last, after, hsplit, hshown, hafter⟩ := ih hrest
      refine ⟨_, last, after, .lexeme ht hlexeme hsplit, ?_, hafter⟩
      exact List.forall_mem_cons.2 ⟨fun _ => lt_of_not_oversized hlexeme hsize, hshown⟩

/-! ### Agreement -/

/-- Two texts have the same tokens, on the same lines, and these end alike. -/
structure Tokenization.Agrees (tokens tokens' : Tokenization) : Prop where
  rows : tokens'.rows = tokens.rows
  failure : tokens'.failure = tokens.failure
  line : tokens'.lexer.line = tokens.lexer.line

namespace Tokenization.Agrees

variable {tokens tokens' : Tokenization}

theorem fault? (h : tokens.Agrees tokens') : tokens'.fault? = tokens.fault? := by
  rw [Tokenization.fault?, Tokenization.fault?, h.failure, h.line]

theorem abort? (h : tokens.Agrees tokens') : tokens'.abort? = tokens.abort? := by
  rw [Tokenization.abort?, Tokenization.abort?, h.failure]

end Tokenization.Agrees

/-- Two rests of texts end alike. -/
def EndAlike (rest rest' : List Char) : Prop :=
  (Ending rest ∧ Ending rest') ∨
    ∃ failure lines, Failing failure lines rest ∧ Failing failure lines rest'

theorem EndAlike.agrees {rest rest' : List Char} (h : EndAlike rest rest') (line : Nat)
    (words words' : Words) :
    (tokenization ⟨rest, line, words⟩).rows = [] ∧
      (tokenization ⟨rest, line, words⟩).Agrees (tokenization ⟨rest', line, words'⟩) := by
  rcases h with ⟨hrest, hrest'⟩ | ⟨failure, lines, hrest, hrest'⟩
  · rw [tokenization_of_end (scan_ending hrest line words),
      tokenization_of_end (scan_ending hrest' line words')]
    exact ⟨rfl, rfl, rfl, rfl⟩
  · obtain ⟨after, hscan, hline⟩ := hrest.scan line words
    obtain ⟨after', hscan', hline'⟩ := hrest'.scan line words'
    rw [tokenization_of_error hscan, tokenization_of_error hscan']
    exact ⟨rfl, rfl, rfl, hline'.trans hline.symm⟩

/-- Texts that split into the same rows and then end alike have the same tokens. -/
theorem agrees_of_splits {text text' : String} {rows : List (Nat × Token)} {line : Nat}
    {rest rest' : List Char} (h : Split 1 text.toList rows line rest)
    (h' : Split 1 text'.toList rows line rest') (hshown : Shown rows)
    (hrest : EndAlike rest rest') : (tokenize text).Agrees (tokenize text') := by
  obtain ⟨known, -, htokens⟩ := tokenization_of_shown h hshown sound_reserved
  obtain ⟨known', -, htokens'⟩ := tokenization_of_shown h' hshown sound_reserved
  obtain ⟨-, hrows, hfailure, hline⟩ := hrest.agrees line known known'
  rw [tokenize_eq text, tokenize_eq text', htokens, htokens']
  exact ⟨congrArg (rows ++ ·) hrows, hfailure, hline⟩

/-! ### Outcomes -/

namespace Resemblance

/-- Only what is the same is alike. -/
def sameness : Resemblance where
  left := .id
  right := .id
  total name := ⟨name, rfl⟩
  tokens := Eq
  kind := congrArg Token.kind
  name h _ := congrArg Token.text h

theorem eq_of_sameness_outcomes {outcome outcome' : Except Abort Verdict}
    (h : sameness.Outcomes outcome outcome') : outcome = outcome' := by
  cases h with
  | @accepted table table' htables =>
    have htables : table.translate .id = table'.translate .id := htables
    rw [SymbolTable.translate_id, SymbolTable.translate_id] at htables
    rw [htables]
  | @rejected fault fault' hfaults =>
    obtain ⟨cause, line⟩ := fault
    obtain ⟨cause', line'⟩ := fault'
    obtain rfl : cause = cause' := hfaults.cause.eq rfl rfl
    obtain rfl : line = line' := hfaults.line
    rfl
  | aborted abort => rfl

end Resemblance

/-- The tokens of a text decide on the outcome of its check. -/
theorem Tokenization.Agrees.outcome {text text' : String}
    (h : (tokenize text).Agrees (tokenize text')) :
    (compile text').outcome = (compile text).outcome := by
  have hrows : List.Forall₂ Resemblance.sameness.Rows (tokenize text).rows
      (tokenize text').rows := by
    rw [h.rows]
    exact List.forall₂_same.2 fun _ _ => ⟨rfl, rfl⟩
  exact (Resemblance.eq_of_sameness_outcomes (Resemblance.outcomes_compile
    ⟨hrows, h.failure.symm, congrArg (fun line : Nat => some (line : Int)) h.line.symm⟩ rfl)).symm

end MiniPascal
