import MiniPascal.Proofs.Lexer.Splitting

/-!
# Numerals too large

A scan fails without a lexical error only at a numeral: one that is too large to be shown
(`scan_eq_oversizedNumeral_iff`), or one before a point that has no double
(`scan_eq_realOverflow_iff`). Whether it does is a matter of the value of the digits alone.
-/

namespace MiniPascal

open Text

/-- After blanks and comments a text goes on with digits of the value `n`, which no point
    follows. -/
def NextWhole (n : Nat) (text : List Char) : Prop :=
  ∃ t w rest, text = t ++ (w ++ rest) ∧ Trivia t ∧ IsDigits w ∧ NotNext goesOnNumeral rest ∧
    decimalValue w = n

/-- After blanks and comments a text goes on with digits of the value `n` and a point. -/
def NextPoint (n : Nat) (text : List Char) : Prop :=
  ∃ t w rest, text = t ++ (w ++ '.' :: rest) ∧ Trivia t ∧ IsDigits w ∧ decimalValue w = n

namespace Lexer

variable {lexer : Lexer} {failure : ScanFailure} {n : Nat}

/-! ### Scans at a numeral -/

theorem scan_of_nextWhole (h : NextWhole n lexer.text) (hn : numeralBound ≤ n) :
    lexer.scan.1 = .error .oversizedNumeral := by
  obtain ⟨text, line, words⟩ := lexer
  obtain ⟨t, w, rest, rfl, ht, hw, hrest, rfl⟩ := h
  rw [scan_trivia ht, scan_of_isDigits hw, scanNumber_num hw hrest, if_neg (Nat.not_lt.2 hn)]
  rfl

theorem scan_of_nextPoint (h : NextPoint n lexer.text) (hn : Decimal.ofNat? n = none) :
    lexer.scan.1 = .error .realOverflow := by
  obtain ⟨text, line, words⟩ := lexer
  obtain ⟨t, w, rest, rfl, ht, hw, rfl⟩ := h
  rw [scan_trivia ht, scan_of_isDigits hw, scanNumber_real hw, hn]
  rfl

/-! ### Scans that fail -/

/-- How a scan may fail at a text: for a lexical cause, or at a numeral too large. -/
inductive FailsAt (text : List Char) : ScanFailure → Prop
  | lexical (cause : LexicalCause) : FailsAt text (.lexical cause)
  | whole {n : Nat} : NextWhole n text → numeralBound ≤ n → FailsAt text .oversizedNumeral
  | point {n : Nat} : NextPoint n text → Decimal.ofNat? n = none → FailsAt text .realOverflow

theorem error_of_map {α β : Type} {f : α → β} {result : Except ScanFailure α}
    (h : result.map f = .error failure) : result = .error failure := by
  cases result with
  | error => simpa [Except.map] using h
  | ok => cases h

/-- What is no lexeme fails to be scanned for its cause. -/
theorem failsAt_of_breaks {t rest : List Char} (ht : Trivia t) (hbreaks : Breaks rest) {line : Nat}
    {words : Words} (h : (scan ⟨t ++ rest, line, words⟩).1 = .error failure) :
    FailsAt (t ++ rest) failure := by
  by_cases hsize : Oversized rest
  · cases hsize with
    | @num w rest hw hrest hn =>
      have hnext : NextWhole (decimalValue w) (t ++ (w ++ rest)) :=
        ⟨t, w, rest, rfl, ht, hw, hrest, rfl⟩
      cases h.symm.trans (scan_of_nextWhole hnext hn)
      exact .whole hnext hn
    | @real w rest hw hn =>
      have hnext : NextPoint (decimalValue w) (t ++ (w ++ '.' :: rest)) :=
        ⟨t, w, rest, rfl, ht, hw, rfl⟩
      cases h.symm.trans (scan_of_nextPoint hnext hn)
      exact .point hnext hn
  · obtain ⟨cause, lines, hmalformed⟩ := hbreaks.resolve_right hsize
    obtain ⟨last, hscan, -⟩ := scan_malformed hmalformed hsize (line + t.count '\n') words
    rw [scan_trivia ht, hscan] at h
    cases h
    exact .lexical cause

/-- A numeral fails to be scanned for the digit that its point lacks, or for its size. -/
theorem failsAt_of_isDigit {t : List Char} (ht : Trivia t) {c : Char} (hdigit : isDigit c = true)
    (text : List Char) {line : Nat} {words : Words}
    (h : (scan ⟨t ++ c :: text, line, words⟩).1 = .error failure) :
    FailsAt (t ++ c :: text) failure := by
  obtain ⟨w, rest, htext, hw, hrest⟩ := exists_numeral hdigit text
  rw [htext] at h ⊢
  rw [scan_trivia ht, scan_of_isDigits hw] at h
  replace h := error_of_map h
  rcases hrest with hrest | ⟨after, rfl⟩
  · by_cases hn : decimalValue w < numeralBound
    · rw [scanNumber_num hw hrest, if_pos hn] at h
      cases h
    · rw [scanNumber_num hw hrest, if_neg hn] at h
      cases h
      exact .whole ⟨t, w, rest, rfl, ht, hw, hrest, rfl⟩ (Nat.le_of_not_lt hn)
  · rw [scanNumber_real hw] at h
    cases hx : Decimal.ofNat? (decimalValue w) with
    | none =>
      rw [hx] at h
      cases h
      exact .point ⟨t, w, after, rfl, ht, hw, rfl⟩ hx
    | some x =>
      simp only [hx] at h
      split at h
      · cases h
        exact .lexical _
      · cases h

/-- A lexeme that is no numeral fails to be scanned for a lexical cause, if it does. -/
theorem lexical_of_scanLexeme {c : Char} {rest : List Char} (hdigit : isDigit c = false)
    (h : (lexer.scanLexeme c rest).1 = .error failure) : ∃ cause, failure = .lexical cause := by
  have hquote (h : lexer.scanCharConst.1 = .error failure) : ∃ cause, failure = .lexical cause := by
    rw [scanCharConst] at h
    split at h
    · cases h
      exact ⟨_, rfl⟩
    · simp only at h
      split at h <;> cases h
      exact ⟨_, rfl⟩
  have hquotes (h : lexer.scanLiteral.1 = .error failure) : ∃ cause, failure = .lexical cause := by
    simp only [scanLiteral] at h
    split at h <;> cases h
    exact ⟨_, rfl⟩
  have hword : lexer.scanWord.1 ≠ .error failure := by
    simp only [scanWord]
    split <;> rintro ⟨⟩
  simp only [scanLexeme, hdigit, Bool.false_eq_true, if_false] at h
  repeat' split at h
  all_goals first | exact hquote h | exact hquotes h | exact absurd h hword | cases h

/-- A scan that fails meets what is no lexeme, or a numeral too large. -/
theorem failsAt_of_error (h : lexer.scan.1 = .error failure) : FailsAt lexer.text failure := by
  obtain ⟨text, line, words⟩ := lexer
  obtain ⟨t, rest, rfl, ht, hrest⟩ := exists_trivia text
  obtain hrest | hrest | ⟨c, after, rfl, hc⟩ := hrest
  · rw [scan_trivia ht, scan_ending hrest] at h
    cases h
  · exact failsAt_of_breaks ht hrest h
  · cases hdigit : isDigit c with
    | true => exact failsAt_of_isDigit ht hdigit after h
    | false =>
      rw [scan_trivia ht, scan_cons hc] at h
      obtain ⟨cause, rfl⟩ := lexical_of_scanLexeme hdigit (error_of_map h)
      exact .lexical cause

theorem scan_eq_oversizedNumeral_iff : lexer.scan.1 = .error .oversizedNumeral ↔
    ∃ n, NextWhole n lexer.text ∧ numeralBound ≤ n := by
  constructor
  · intro h
    obtain _ | ⟨hnext, hn⟩ := failsAt_of_error h
    exact ⟨_, hnext, hn⟩
  · rintro ⟨n, hnext, hn⟩
    exact scan_of_nextWhole hnext hn

theorem scan_eq_realOverflow_iff : lexer.scan.1 = .error .realOverflow ↔
    ∃ n, NextPoint n lexer.text ∧ Decimal.ofNat? n = none := by
  constructor
  · intro h
    obtain _ | _ | ⟨hnext, hn⟩ := failsAt_of_error h
    exact ⟨_, hnext, hn⟩
  · rintro ⟨n, hnext, hn⟩
    exact scan_of_nextPoint hnext hn

end Lexer

end MiniPascal
