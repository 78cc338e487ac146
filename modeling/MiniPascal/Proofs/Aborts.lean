import Mathlib.Data.Nat.Digits.Lemmas
import MiniPascal.Proofs.Lexer.Line
import MiniPascal.Proofs.Lexer.Overflow
import MiniPascal.Proofs.Parser.Interruption
import MiniPascal.Proofs.Rounding

/-!
# What aborts the check of a text

The check of a text ends with a verdict unless the parser comes upon a numeral too large
(`aborted_iff_numeral`). It comes upon what it scans, and it scans no further than to the
first fault: a numeral beyond that does no harm.

Of the other aborts, the refusals of the symbol table are out of the question for every
stream, and a text that is there as a whole is never unreadable.
-/

namespace MiniPascal

/-- The check of a text scans digits of the value `n` that no point follows. -/
def ScansWhole (text : String) (n : Nat) : Prop :=
  ∃ i < (pulledScans (Lexer.ofText text).scans).length,
    NextWhole n ((Lexer.ofText text).afterScans i).text

/-- The check of a text scans digits of the value `n` and looks at the point after them. -/
def ScansPoint (text : String) (n : Nat) : Prop :=
  ∃ i < (pulledScans (Lexer.ofText text).scans).length,
    NextPoint n ((Lexer.ofText text).afterScans i).text

variable {text : String}

/-- A check of a text pulls one scan of its lexer after another. -/
theorem mem_pulledScans_iff {scan : Scan} : scan ∈ pulledScans (Lexer.ofText text).scans ↔
    ∃ i < (pulledScans (Lexer.ofText text).scans).length, scan =
      ⟨((Lexer.ofText text).afterScans i).scan.1, (Lexer.ofText text).afterScans (i + 1)⟩ := by
  obtain ⟨rest, hscans, -⟩ := exists_pulledScans (Lexer.ofText text).scans
  have hget {i : Nat} (hi : i < (pulledScans (Lexer.ofText text).scans).length) :=
    Lexer.getElem?_scans (List.prefix_iff_getElem?.1 ⟨rest, hscans.symm⟩ i hi)
  rw [List.mem_iff_getElem]
  exact ⟨fun ⟨i, hi, h⟩ => ⟨i, hi, h ▸ hget hi⟩, fun ⟨i, hi, h⟩ => ⟨i, hi, h ▸ hget hi⟩⟩

/-- A check of a text is aborted exactly if a scan is that it pulls of its lexer. -/
theorem outcome_compile_eq_error_iff {abort : Abort} : (compile text).outcome = .error abort ↔
    ∃ i < (pulledScans (Lexer.ofText text).scans).length, ∃ failure,
      ((Lexer.ofText text).afterScans i).scan.1 = .error failure ∧ failure.abort? = some abort := by
  rw [compile, outcome_eq_error_iff]
  constructor
  · rintro ⟨scan, hmem, hfailure⟩
    obtain ⟨i, hi, rfl⟩ := mem_pulledScans_iff.1 hmem
    exact ⟨i, hi, hfailure⟩
  · rintro ⟨i, hi, hfailure⟩
    exact ⟨_, mem_pulledScans_iff.2 ⟨i, hi, rfl⟩, hfailure⟩

theorem pow_le_iff (k n : Nat) : Nat.pow 10 k ≤ n ↔ k < (Nat.digits 10 n).length :=
  (Nat.lt_digits_length_iff (by decide) n).symm

theorem ofNat?_eq_none_iff_le (n : Nat) :
    Decimal.ofNat? n = none ↔ Decimal.largestDouble + 2 ^ 970 ≤ n := by
  rw [Decimal.ofNat?_eq_none_iff, ← Nat.not_lt, ← Decimal.fitsBinary64_iff, Bool.not_eq_true]

theorem outcome_eq_oversizedNumeral_iff : (compile text).outcome = .error .oversizedNumeral ↔
    ∃ n, ScansWhole text n ∧ 4300 < (Nat.digits 10 n).length := by
  have habort (failure : ScanFailure) :
      failure.abort? = some .oversizedNumeral ↔ failure = .oversizedNumeral := by
    cases failure <;> simp [ScanFailure.abort?]
  have hbound (n : Nat) : Lexer.numeralBound ≤ n ↔ 4300 < (Nat.digits 10 n).length :=
    pow_le_iff 4300 n
  rw [outcome_compile_eq_error_iff]
  simp only [habort, exists_eq_right, Lexer.scan_eq_oversizedNumeral_iff, hbound]
  constructor
  · rintro ⟨i, hi, n, hnext, hn⟩
    exact ⟨n, ⟨i, hi, hnext⟩, hn⟩
  · rintro ⟨n, ⟨i, hi, hnext⟩, hn⟩
    exact ⟨i, hi, n, hnext, hn⟩

theorem outcome_eq_realOverflow_iff : (compile text).outcome = .error .realOverflow ↔
    ∃ n, ScansPoint text n ∧ Decimal.largestDouble + 2 ^ 970 ≤ n := by
  have habort (failure : ScanFailure) :
      failure.abort? = some .realOverflow ↔ failure = .realOverflow := by
    cases failure <;> simp [ScanFailure.abort?]
  rw [outcome_compile_eq_error_iff]
  simp only [habort, exists_eq_right, Lexer.scan_eq_realOverflow_iff, ofNat?_eq_none_iff_le]
  constructor
  · rintro ⟨i, hi, n, hnext, hn⟩
    exact ⟨n, ⟨i, hi, hnext⟩, hn⟩
  · rintro ⟨n, ⟨i, hi, hnext⟩, hn⟩
    exact ⟨i, hi, n, hnext, hn⟩

/-- The check of a text ends with a verdict, unless it is aborted by a numeral: by one without
    a point, exactly if it scans one of more than 4300 digits, or by one with a point, exactly
    if it scans one whose whole part is beyond the doubles. The symbol table never aborts it. -/
theorem aborted_iff_numeral (text : String) :
    ((∃ verdict, (compile text).outcome = .ok verdict) ∨
      (compile text).outcome = .error .oversizedNumeral ∨
      (compile text).outcome = .error .realOverflow) ∧
    ((compile text).outcome = .error .oversizedNumeral ↔
      ∃ n, ScansWhole text n ∧ 4300 < (Nat.digits 10 n).length) ∧
    ((compile text).outcome = .error .realOverflow ↔
      ∃ n, ScansPoint text n ∧ Decimal.largestDouble + 2 ^ 970 ≤ n) := by
  refine ⟨?_, outcome_eq_oversizedNumeral_iff, outcome_eq_realOverflow_iff⟩
  cases h : (compile text).outcome with
  | ok verdict => exact .inl ⟨verdict, rfl⟩
  | error abort =>
    obtain ⟨i, -, failure, hscan, habort⟩ := outcome_compile_eq_error_iff.1 h
    -- A scan of a text fails in three ways, one of which is a fault.
    cases Lexer.failsAt_of_error hscan with
    | lexical => cases habort
    | whole =>
      cases habort
      exact .inr (.inl rfl)
    | point =>
      cases habort
      exact .inr (.inr rfl)

end MiniPascal
