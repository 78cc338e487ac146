import MiniPascal.Proofs.Lexer.Splitting
import MiniPascal.Proofs.Lexer.Stream

/-!
# The tokens of a text

The tokens of a text are those of the lexemes that it splits into, and the fault that ends
them is that of what is no lexeme (`tokenize_iff_split`).

A split says what is where, and the scans of a lexer say what is found. A lexer that
stands before a split finds its rows one by one (`tokenization_of_split`), and as every
text has a split, it finds nothing else.
-/

namespace MiniPascal

namespace Lexer

variable {lexer after : Lexer} {line line' : Nat} {words : Words}

/-! ### One scan of the tokens -/

theorem tokenization_of_end (h : lexer.scan = (.ok none, after)) :
    lexer.tokenization = ⟨[], none, after⟩ := by
  rw [tokenization, scans_of_end (by rw [h]), h]
  rfl

theorem tokenization_of_error {failure : ScanFailure} (h : lexer.scan = (.error failure, after)) :
    lexer.tokenization = ⟨[], some failure, after⟩ := by
  rw [tokenization, scans_of_ne (by rw [h]; simp), h]
  rfl

theorem tokenization_of_token {token : Token} (h : lexer.scan = (.ok (some token), after)) :
    lexer.tokenization =
      { after.tokenization with rows := (after.line, token) :: after.tokenization.rows } := by
  rw [tokenization, scans_of_ne (by rw [h]; simp), h]
  rfl

theorem tokenization_congr {lexer' : Lexer} (h : lexer.scan = lexer'.scan) :
    lexer.tokenization = lexer'.tokenization := by
  cases hscan : lexer'.scan with
  | mk result after =>
    rw [hscan] at h
    cases result with
    | error failure => rw [tokenization_of_error h, tokenization_of_error hscan]
    | ok token =>
      cases token with
      | none => rw [tokenization_of_end h, tokenization_of_end hscan]
      | some token => rw [tokenization_of_token h, tokenization_of_token hscan]

/-- Blanks and comments before a text change nothing of its tokens but their lines. -/
theorem tokenization_trivia {t : List Char} (h : Trivia t) (rest : List Char) (line : Nat)
    (words : Words) : tokenization ⟨t ++ rest, line, words⟩ =
      tokenization ⟨rest, line + t.count '\n', words⟩ :=
  tokenization_congr (scan_trivia h rest line words)

/-- A lexeme is the first row, on the line that it ends on, and its scan leaves what follows it. -/
theorem tokenization_lexeme {t w rest : List Char} {token : Token} (ht : Trivia t)
    (hlexeme : Lexeme w token rest) (hshown : ∀ n : Nat, token = .num n → n < numeralBound)
    (hwords : Sound words) (line : Nat) :
    ∃ known, Sound known ∧ tokenization ⟨t ++ (w ++ rest), line, words⟩ =
      { tokenization ⟨rest, line + (t ++ w).count '\n', known⟩ with
        rows := (line + (t ++ w).count '\n', token) ::
          (tokenization ⟨rest, line + (t ++ w).count '\n', known⟩).rows } := by
  obtain ⟨known, hknown, hscan⟩ := scan_lexeme hlexeme hshown hwords (line + t.count '\n')
  rw [Nat.add_assoc, ← List.count_append] at hscan
  exact ⟨known, hknown, by rw [tokenization_trivia ht, tokenization_of_token hscan]⟩

theorem abort?_of_oversized {text : List Char} (h : Oversized text) (line : Nat)
    (words : Words) : (tokenization ⟨text, line, words⟩).abort? ≠ none := by
  cases hscan : scan ⟨text, line, words⟩ with
  | mk result after =>
    rcases scan_oversized h line words with hfailure | hfailure <;>
    · rw [hscan] at hfailure
      obtain rfl : result = _ := hfailure
      rw [tokenization_of_error hscan]
      simp [Tokenization.abort?, ScanFailure.abort?]

/-! ### Splits -/

/-- The numerals among rows can be shown. -/
def Shown (rows : List (Nat × Token)) : Prop :=
  ∀ row ∈ rows, ∀ n : Nat, row.2 = .num n → n < numeralBound

/-- A lexer finds the rows of a split, if they can be shown, and goes on with the rest. -/
theorem tokenization_of_shown {text rest : List Char} {rows : List (Nat × Token)}
    (h : Split line text rows line' rest)
    (hshown : Shown rows) (hwords : Sound words) :
    ∃ after, Sound after ∧ tokenization ⟨text, line, words⟩ =
      { tokenization ⟨rest, line', after⟩ with
        rows := rows ++ (tokenization ⟨rest, line', after⟩).rows } := by
  induction h generalizing words with
  | trivia ht => exact ⟨words, hwords, tokenization_trivia ht _ _ words⟩
  | lexeme ht hlexeme _ ih =>
    obtain ⟨hfirst, hothers⟩ := List.forall_mem_cons.1 hshown
    obtain ⟨known, hknown, htokens⟩ := tokenization_lexeme ht hlexeme hfirst hwords _
    obtain ⟨after, hafter, hrest⟩ := ih hothers hknown
    refine ⟨after, hafter, ?_⟩
    rw [htokens, hrest]
    rfl

/-- Without oversized numerals, the rows of a split can be shown. -/
theorem shown_of_split {text rest : List Char} {rows : List (Nat × Token)}
    (h : Split line text rows line' rest)
    (hsize : ∀ rows line' rest, Split line text rows line' rest → ¬ Oversized rest) :
    Shown rows := by
  induction h with
  | trivia => exact List.forall_mem_nil _
  | lexeme ht hlexeme _ ih =>
    refine List.forall_mem_cons.2 ⟨fun _ => ?_, ih fun _ _ _ hsplit => ?_⟩
    · exact lt_of_not_oversized hlexeme (hsize _ _ _ (.trivia ht))
    · exact hsize _ _ _ (.lexeme ht hlexeme hsplit)

/-- A lexer finds the rows of a split, and goes on with the rest. -/
theorem tokenization_of_split {text rest : List Char} {rows : List (Nat × Token)}
    (h : Split line text rows line' rest)
    (hsize : ∀ rows line' rest, Split line text rows line' rest → ¬ Oversized rest)
    (hwords : Sound words) : ∃ after, Sound after ∧ tokenization ⟨text, line, words⟩ =
      { tokenization ⟨rest, line', after⟩ with
        rows := rows ++ (tokenization ⟨rest, line', after⟩).rows } :=
  tokenization_of_shown h (shown_of_split h hsize) hwords

/-- A numeral too large aborts the tokens where it stands, or one before it does. -/
theorem abort?_of_split {text rest : List Char} {rows : List (Nat × Token)}
    (h : Split line text rows line' rest) (hrest : Oversized rest) (hwords : Sound words) :
    (tokenization ⟨text, line, words⟩).abort? ≠ none := by
  induction h generalizing words with
  | trivia ht =>
    rw [tokenization_trivia ht]
    exact abort?_of_oversized hrest _ words
  | @lexeme _ _ _ w rest _ _ _ ht hlexeme _ ih =>
    -- A numeral may be a lexeme by its shape and still too large to be shown.
    by_cases hsize : Oversized (w ++ rest)
    · rw [tokenization_trivia ht]
      exact abort?_of_oversized hsize _ words
    obtain ⟨known, hknown, htokens⟩ :=
      tokenization_lexeme ht hlexeme (fun _ => lt_of_not_oversized hlexeme hsize) hwords _
    rw [htokens]
    exact ih hrest hknown

end Lexer

/-! ### The tokens of a text -/

open Lexer

/-- The blank before a text is the first that its lexer passes over. -/
theorem tokenize_eq (text : String) :
    tokenize text = tokenization ⟨text.toList, 1, .reserved⟩ :=
  tokenization_trivia (t := [' ']) (.blank (by decide) .nil) text.toList 1 .reserved

variable {text : String} {rows : List (Nat × Token)} {line : Nat} {rest : List Char}

theorem tokenize_of_ending (hsize : NoOversizedNumeral text.toList)
    (h : Split 1 text.toList rows line rest) (hrest : Ending rest) :
    (tokenize text).rows = rows ∧ (tokenize text).abort? = none ∧
      (tokenize text).fault? = none := by
  obtain ⟨after, -, htokens⟩ := tokenization_of_split h hsize sound_reserved
  rw [tokenize_eq, htokens, tokenization_of_end (scan_ending hrest line after)]
  exact ⟨List.append_nil rows, rfl, rfl⟩

theorem tokenize_of_malformed {cause : LexicalCause} {lines : Nat}
    (hsize : NoOversizedNumeral text.toList) (h : Split 1 text.toList rows line rest)
    (hrest : Malformed cause lines rest) : (tokenize text).rows = rows ∧
      (tokenize text).abort? = none ∧
      (tokenize text).fault? = some ⟨.lexical cause, some (line + lines)⟩ := by
  obtain ⟨after, -, htokens⟩ := tokenization_of_split h hsize sound_reserved
  obtain ⟨last, hscan, hlast⟩ := scan_malformed hrest (hsize _ _ _ h) line after
  rw [tokenize_eq, htokens, tokenization_of_error hscan]
  refine ⟨List.append_nil rows, rfl, ?_⟩
  rw [← Nat.cast_add, ← hlast]
  rfl

/-- As every text splits, there is no third way for the tokens to end. -/
theorem tokenize_cases (hsize : NoOversizedNumeral text.toList) :
    (∃ line rest, Split 1 text.toList (tokenize text).rows line rest ∧ Ending rest ∧
      (tokenize text).abort? = none ∧ (tokenize text).fault? = none) ∨
    ∃ line rest cause lines, Split 1 text.toList (tokenize text).rows line rest ∧
      Malformed cause lines rest ∧ (tokenize text).abort? = none ∧
      (tokenize text).fault? = some ⟨.lexical cause, some (line + lines)⟩ := by
  obtain ⟨rows, line, rest, hsplit, hend | ⟨cause, lines, hmalformed⟩ | hoversized⟩ :=
    exists_split 1 text.toList
  · obtain ⟨rfl, habort, hfault⟩ := tokenize_of_ending hsize hsplit hend
    exact .inl ⟨line, rest, hsplit, hend, habort, hfault⟩
  · obtain ⟨rfl, habort, hfault⟩ := tokenize_of_malformed hsize hsplit hmalformed
    exact .inr ⟨line, rest, cause, lines, hsplit, hmalformed, habort, hfault⟩
  · exact absurd hoversized (hsize _ _ _ hsplit)

/-- The tokens of a text are aborted by a numeral too large, and by nothing else. -/
theorem abort?_tokenize_eq_none_iff (text : String) :
    (tokenize text).abort? = none ↔ NoOversizedNumeral text.toList := by
  constructor
  · intro habort rows line rest hsplit hrest
    rw [tokenize_eq] at habort
    exact abort?_of_split hsplit hrest sound_reserved habort
  · intro hsize
    rcases tokenize_cases hsize with ⟨_, _, -, -, habort, -⟩ | ⟨_, _, _, _, -, -, habort, -⟩
    · exact habort
    · exact habort

/-- The tokens of a text without oversized numerals are the rows of its split, which goes as
    far as the text splits. If that is to its end there is no fault; otherwise something
    begins there that is no lexeme, and the fault says what, on the line it is noticed. -/
theorem tokenize_iff_split (hsize : NoOversizedNumeral text.toList) :
    (tokenize text).abort? = none ∧
    (∀ rows, (tokenize text).rows = rows ∧ (tokenize text).fault? = none ↔
      ∃ line rest, Split 1 text.toList rows line rest ∧ Ending rest) ∧
    (∀ rows fault, (tokenize text).rows = rows ∧ (tokenize text).fault? = some fault ↔
      ∃ line rest cause lines, Split 1 text.toList rows line rest ∧
        Malformed cause lines rest ∧ fault = ⟨.lexical cause, some (line + lines)⟩) := by
  refine ⟨(abort?_tokenize_eq_none_iff text).2 hsize, fun rows => ⟨?_, ?_⟩,
    fun rows fault => ⟨?_, ?_⟩⟩
  · rintro ⟨rfl, hfault⟩
    rcases tokenize_cases hsize with
      ⟨line, rest, hsplit, hend, -⟩ | ⟨_, _, _, _, -, -, -, hfault'⟩
    · exact ⟨line, rest, hsplit, hend⟩
    · rw [hfault'] at hfault
      cases hfault
  · rintro ⟨line, rest, hsplit, hend⟩
    obtain ⟨hrows, -, hfault⟩ := tokenize_of_ending hsize hsplit hend
    exact ⟨hrows, hfault⟩
  · rintro ⟨rfl, hfault⟩
    rcases tokenize_cases hsize with
      ⟨_, _, -, -, -, hfault'⟩ | ⟨line, rest, cause, lines, hsplit, hmalformed, -, hfault'⟩
    · rw [hfault'] at hfault
      cases hfault
    · rw [hfault'] at hfault
      exact ⟨line, rest, cause, lines, hsplit, hmalformed, (Option.some.inj hfault).symm⟩
  · rintro ⟨line, rest, cause, lines, hsplit, hmalformed, rfl⟩
    obtain ⟨hrows, -, hfault⟩ := tokenize_of_malformed hsize hsplit hmalformed
    exact ⟨hrows, hfault⟩

/-- A point that no digit follows ends the tokens, and a comment before it is none. -/
theorem tokenize_point_without_digit :
    NoOversizedNumeral "x = \x7bone\x7d\n7 2.;".toList ∧
      ∃ line rest cause lines, Split 1 "x = \x7bone\x7d\n7 2.;".toList
          [(1, .ident "x"), (1, .plain .assign), (2, .num 7)] line rest ∧
        Malformed cause lines rest ∧
        (⟨.lexical .pointWithoutDigit, some 2⟩ : Fault) =
          ⟨.lexical cause, some (line + lines)⟩ := by
  have hsize : NoOversizedNumeral "x = \x7bone\x7d\n7 2.;".toList :=
    (abort?_tokenize_eq_none_iff _).1 (by decide +kernel)
  exact ⟨hsize, ((tokenize_iff_split hsize).2.2 _ _).1 ⟨by decide +kernel, by decide +kernel⟩⟩

end MiniPascal
