import MiniPascal.Proofs.Tokenization

/-!
# A lexer further down

What a lexer makes of a text does not depend on the line that it begins on, nor on the words
that it has met before. A lexer that begins a number of lines further down (`Lexer.Offset`),
and knows other names, yields the same tokens as many lines further down, and fails at the same
place for the same reason (`Lexer.tokenization_offset`).
-/

namespace MiniPascal

open Text

namespace Lexer

/-- Two lexers stand before the same text, the second `k` lines further down. Both know the
    reserved words, and other words only as names. -/
structure Offset (k : Nat) (lexer lexer' : Lexer) : Prop where
  text : lexer'.text = lexer.text
  line : lexer'.line = lexer.line + k
  sound : Sound lexer.words
  sound' : Sound lexer'.words

/-- Two steps come to the same, the second `k` lines further down. -/
structure OffsetSteps {α : Type} (k : Nat) (step step' : Outcome α) : Prop where
  result : step'.1 = step.1
  lexer : step.2.Offset k step'.2

variable {k : Nat} {lexer lexer' : Lexer}

theorem lineAfter_add (line k : Nat) (c : Char) :
    lineAfter (line + k) c = lineAfter line c + k := by
  rw [lineAfter_eq, lineAfter_eq, Nat.add_right_comm]

theorem OffsetSteps.exists_after {α : Type} {step step' : Outcome α}
    (h : OffsetSteps k step step') {result : Except ScanFailure α} {after : Lexer}
    (hstep : step = (result, after)) :
    ∃ after', step' = (result, after') ∧ after.Offset k after' := by
  subst hstep
  exact ⟨step'.2, Prod.ext h.result rfl, h.lexer⟩

/-- Both lexers go on to another place, over the same number of lines. -/
theorem Offset.moved (h : lexer.Offset k lexer') (text : List Char) {line line' : Nat}
    (hline : line' = line + k) :
    Offset k { lexer with text, line } { lexer' with text, line := line' } :=
  ⟨rfl, hline, h.sound, h.sound'⟩

/-! ### Blanks and comments -/

theorem offset_skipBlockComment (h : lexer.Offset k lexer') :
    OffsetSteps k lexer.skipBlockComment lexer'.skipBlockComment := by
  simp only [skipBlockComment, h.text, h.line]
  split <;> exact ⟨rfl, h.moved _ (Nat.add_right_comm _ _ _)⟩

theorem offset_skipLineComment (h : lexer.Offset k lexer') :
    lexer.skipLineComment.Offset k lexer'.skipLineComment := by
  simp only [skipLineComment, h.text]
  split
  · exact h.moved _ h.line
  · exact h.moved _ (by rw [h.line, Nat.add_right_comm])

theorem offset_skipTrivia (h : lexer.Offset k lexer') :
    OffsetSteps k lexer.skipTrivia lexer'.skipTrivia := by
  fun_induction skipTrivia lexer generalizing lexer' with
  | case1 lexer htext =>
    rw [skipTrivia]
    split
    · exact ⟨rfl, h⟩
    · next htext' => simp [h.text, htext] at htext'
  | case2 lexer c rest htext hblank ih =>
    obtain ⟨text', line', words'⟩ := lexer'
    obtain rfl : text' = c :: rest := h.text.trans htext
    rw [skipTrivia_cons, if_pos hblank]
    exact ih (h.moved rest (by rw [← lineAfter_add, ← h.line]))
  | case3 lexer rest after hskip htext hblank ih =>
    obtain ⟨after', hskip', hafter⟩ := (offset_skipBlockComment h).exists_after hskip
    obtain ⟨text', line', words'⟩ := lexer'
    obtain rfl : text' = '\x7b' :: rest := h.text.trans htext
    rw [skipTrivia_cons, if_neg hblank, if_pos rfl, hskip']
    exact ih hafter
  | case4 lexer rest failure after hskip htext hblank =>
    obtain ⟨after', hskip', hafter⟩ := (offset_skipBlockComment h).exists_after hskip
    obtain ⟨text', line', words'⟩ := lexer'
    obtain rfl : text' = '\x7b' :: rest := h.text.trans htext
    rw [skipTrivia_cons, if_neg hblank, if_pos rfl, hskip']
    exact ⟨rfl, hafter⟩
  | case5 lexer rest htext hblank hbrace ih =>
    have hcomment := offset_skipLineComment h
    obtain ⟨text', line', words'⟩ := lexer'
    obtain rfl : text' = '%' :: rest := h.text.trans htext
    rw [skipTrivia_cons, if_neg hblank, if_neg hbrace, if_pos rfl]
    exact ih hcomment
  | case6 lexer c rest htext hblank hbrace hpercent =>
    obtain ⟨text', line', words'⟩ := lexer'
    obtain rfl : text' = c :: rest := h.text.trans htext
    rw [skipTrivia_cons, if_neg hblank, if_neg hbrace, if_neg hpercent]
    exact ⟨rfl, h⟩

/-! ### Lexemes -/

theorem offset_scanCharConst (h : lexer.Offset k lexer') :
    OffsetSteps k lexer.scanCharConst lexer'.scanCharConst := by
  simp only [scanCharConst, h.text]
  split
  · exact ⟨rfl, h.moved _ h.line⟩
  · next c rest _ =>
    have hline : lineAfter lexer'.line c = lineAfter lexer.line c + k := by
      rw [h.line, lineAfter_add]
    split <;> exact ⟨rfl, h.moved _ hline⟩

theorem offset_scanLiteral (h : lexer.Offset k lexer') :
    OffsetSteps k lexer.scanLiteral lexer'.scanLiteral := by
  simp only [scanLiteral, h.text]
  split <;> exact ⟨rfl, h.moved _ h.line⟩

theorem offset_scanNumber (h : lexer.Offset k lexer') :
    OffsetSteps k lexer.scanNumber lexer'.scanNumber := by
  simp only [scanNumber, h.text]
  split
  · split
    · exact ⟨rfl, h.moved _ h.line⟩
    · split <;> exact ⟨rfl, h.moved _ h.line⟩
  · split <;> exact ⟨rfl, h.moved _ h.line⟩

/-- A word is reserved or a name to every lexer, whatever names it has met. -/
theorem exists_scanWord (text : List Char) : ∃ token, ∀ (line : Nat) (words : Words), Sound words →
    ∃ known, Sound known ∧ scanWord ⟨text, line, words⟩ =
      (.ok token, ⟨text.dropWhile isWordChar, line, known⟩) := by
  generalize hlexeme : String.ofList (lowercase (text.takeWhile isWordChar)) = lexeme
  by_cases hreserved : ∃ kind ∈ Kind.reservedWords, lexeme = kind.text
  · obtain ⟨kind, hkind, rfl⟩ := hreserved
    refine ⟨.spelled kind, fun line words hwords => ⟨words, hwords, ?_⟩⟩
    simp only [scanWord, hlexeme, hwords.reserved kind hkind]
    rfl
  · have hother : ∀ kind ∈ Kind.reservedWords, lexeme ≠ kind.text :=
      fun kind hkind heq => hreserved ⟨kind, hkind, heq⟩
    refine ⟨.ident lexeme, fun line words hwords => ?_⟩
    simp only [scanWord, hlexeme]
    cases hget : words.get? (.text lexeme) with
    | none => exact ⟨_, hwords.insert hget, rfl⟩
    | some token =>
      obtain rfl := hwords.name lexeme hother token hget
      exact ⟨words, hwords, rfl⟩

theorem offset_scanWord (h : lexer.Offset k lexer') :
    OffsetSteps k lexer.scanWord lexer'.scanWord := by
  obtain ⟨token, hscan⟩ := exists_scanWord lexer.text
  obtain ⟨known, hknown, heq⟩ := hscan lexer.line lexer.words h.sound
  obtain ⟨known', hknown', heq'⟩ := hscan lexer'.line lexer'.words h.sound'
  rw [← h.text] at heq'
  rw [show lexer.scanWord = _ from heq, show lexer'.scanWord = _ from heq']
  exact ⟨rfl, by rw [h.text], h.line, hknown, hknown'⟩

theorem offset_scanLexeme (h : lexer.Offset k lexer') (c : Char) (rest : List Char) :
    OffsetSteps k (lexer.scanLexeme c rest) (lexer'.scanLexeme c rest) := by
  have hone {result : Except ScanFailure Token} (text : List Char) :
      OffsetSteps k (result, { lexer with text }) (result, { lexer' with text }) :=
    ⟨rfl, h.moved text h.line⟩
  unfold scanLexeme
  split
  · split <;> exact hone _
  · split
    · exact hone _
    · split
      · exact offset_scanCharConst h
      · split
        · exact offset_scanLiteral h
        · split
          · exact offset_scanNumber h
          · split
            · exact offset_scanWord h
            · exact hone _

/-- A scan further down comes to the same further down. -/
theorem offset_scan (h : lexer.Offset k lexer') : OffsetSteps k lexer.scan lexer'.scan := by
  cases hskip : lexer.skipTrivia with
  | mk result after =>
    obtain ⟨after', hskip', hafter⟩ := (offset_skipTrivia h).exists_after hskip
    simp only [scan, hskip, hskip']
    cases result with
    | error failure => exact ⟨rfl, hafter⟩
    | ok =>
      simp only [show after'.text = after.text from hafter.text]
      split
      · exact ⟨rfl, hafter⟩
      · next c rest _ =>
        obtain ⟨hlexeme, hlast⟩ := offset_scanLexeme hafter c rest
        exact ⟨congrArg (Except.map some) hlexeme, hlast⟩

end Lexer

/-! ### Tokens -/

/-- The second tokens are the first, `k` lines further down. -/
structure Tokenization.Offset (k : Nat) (tokens tokens' : Tokenization) : Prop where
  rows : tokens'.rows = tokens.rows.map fun (line, token) => (line + k, token)
  failure : tokens'.failure = tokens.failure
  line : tokens'.lexer.line = tokens.lexer.line + k

/-- A lexer further down yields the same tokens further down. -/
theorem Lexer.tokenization_offset {k : Nat} {lexer lexer' : Lexer} (h : lexer.Offset k lexer') :
    lexer.tokenization.Offset k lexer'.tokenization := by
  fun_induction scans lexer generalizing lexer' with
  | case1 lexer after hscan =>
    obtain ⟨after', hscan', hafter⟩ := (offset_scan h).exists_after hscan
    rw [tokenization_of_end hscan, tokenization_of_end hscan']
    exact ⟨rfl, rfl, hafter.line⟩
  | case2 lexer token after hscan ih =>
    obtain ⟨after', hscan', hafter⟩ := (offset_scan h).exists_after hscan
    rw [tokenization_of_token hscan, tokenization_of_token hscan']
    obtain ⟨hrows, hfailure, hline⟩ := ih hafter
    refine ⟨?_, hfailure, hline⟩
    rw [hrows, hafter.line]
    rfl
  | case3 lexer failure after hscan ih =>
    obtain ⟨after', hscan', hafter⟩ := (offset_scan h).exists_after hscan
    rw [tokenization_of_error hscan, tokenization_of_error hscan']
    exact ⟨rfl, rfl, hafter.line⟩

end MiniPascal
