import MiniPascal.Proofs.Lexer.Boundary
import MiniPascal.Proofs.Lexer.Offset

/-!
# Texts put together

A newline ends whatever a text ends with. If a text has tokens up to its end, then those of
another text put after it, on a line of its own, are what they were, as many lines further down
as the first text has (`tokenize_append_newline`). Nothing that the first text contains is left
over for the second but the line.
-/

namespace MiniPascal

open Lexer

/-- A fault on a line further down. -/
def Fault.below (k : Nat) (fault : Fault) : Fault :=
  { fault with line := fault.line.map (· + k) }

/-- What fails further down is reported further down, and aborts as before. -/
theorem Tokenization.Offset.fault? {k : Nat} {tokens tokens' : Tokenization}
    (h : tokens.Offset k tokens') : tokens'.fault? = tokens.fault?.map (.below k) := by
  rw [Tokenization.fault?, Tokenization.fault?, h.failure, h.line]
  cases tokens.failure with
  | none => rfl
  | some failure => cases failure <;> rfl

theorem Tokenization.Offset.abort? {k : Nat} {tokens tokens' : Tokenization}
    (h : tokens.Offset k tokens') : tokens'.abort? = tokens.abort? := by
  rw [Tokenization.abort?, Tokenization.abort?, h.failure]

/-- A text with tokens up to its end splits up to its end. -/
theorem exists_split_of_unfailed {text : String} (h : (tokenize text).failure = none) :
    NoOversizedNumeral text.toList ∧
      ∃ line rest, Split 1 text.toList (tokenize text).rows line rest ∧ Ending rest := by
  have hsize : NoOversizedNumeral text.toList :=
    (abort?_tokenize_eq_none_iff text).1 (by rw [Tokenization.abort?, h]; rfl)
  refine ⟨hsize, ((tokenize_iff_split hsize).2.1 _).1 ⟨rfl, ?_⟩⟩
  rw [Tokenization.fault?, h]
  rfl

/-- The tokens of a text, and what ends them, are those of the same text that follows another
    one on a line of its own, if that has tokens up to its end. -/
theorem tokenize_append_newline {a b : String} (ha : (tokenize a).failure = none) :
    (tokenize (a ++ "\n" ++ b)).rows = (tokenize a).rows ++ (tokenize b).rows.map
        (fun (line, token) => (line + (1 + a.toList.count '\n'), token)) ∧
      (tokenize (a ++ "\n" ++ b)).fault? =
        (tokenize b).fault?.map (.below (1 + a.toList.count '\n')) ∧
      (tokenize (a ++ "\n" ++ b)).abort? = (tokenize b).abort? := by
  obtain ⟨hsize, line, rest, hsplit, hrest⟩ := exists_split_of_unfailed ha
  obtain ⟨known, hknown, htokens⟩ := tokenization_of_shown (hsplit.append_newline hrest b.toList)
    (shown_of_split hsplit hsize) sound_reserved
  -- The second text is scanned on a later line, with the names of the first already known.
  have hoffset : Offset (1 + a.toList.count '\n') ⟨b.toList, 1, .reserved⟩
      ⟨b.toList, 1 + (1 + a.toList.count '\n'), known⟩ := ⟨rfl, rfl, sound_reserved, hknown⟩
  have hbelow := tokenization_offset hoffset
  rw [← tokenize_eq] at hbelow
  have htext : (a ++ "\n" ++ b).toList = a.toList ++ '\n' :: b.toList := by simp
  rw [tokenize_eq (a ++ "\n" ++ b), htext, htokens]
  exact ⟨congrArg _ hbelow.rows, hbelow.fault?, hbelow.abort?⟩

/-- A comment that is not closed before the newline is closed by it, and the name in the second
    text is not mistaken for anything in the first. -/
theorem tokenize_append_newline_comment :
    (tokenize "a &\n7 % b").failure = none ∧
      (tokenize ("a &\n7 % b" ++ "\n" ++ "A\n& 'cd'")).rows = (tokenize "a &\n7 % b").rows ++
        (tokenize "A\n& 'cd'").rows.map
          (fun (line, token) => (line + (1 + "a &\n7 % b".toList.count '\n'), token)) ∧
      (tokenize ("a &\n7 % b" ++ "\n" ++ "A\n& 'cd'")).fault? =
        (tokenize "A\n& 'cd'").fault?.map (.below (1 + "a &\n7 % b".toList.count '\n')) ∧
      (tokenize ("a &\n7 % b" ++ "\n" ++ "A\n& 'cd'")).abort? = (tokenize "A\n& 'cd'").abort? := by
  have ha : (tokenize "a &\n7 % b").failure = none := by decide +kernel
  exact ⟨ha, tokenize_append_newline ha⟩

end MiniPascal
