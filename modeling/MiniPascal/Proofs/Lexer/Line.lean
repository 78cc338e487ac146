import MiniPascal.Proofs.Lexer.Splitting
import MiniPascal.Proofs.Lexer.Stream

/-!
# The line of a lexer

A lexer counts every newline that it passes, and each once: between lexemes, within comments
and quotes, and on the way to where it notices a failure. Each of its steps is of that kind
(`Lexer.Passes`), so the line that a lexer has reached is told by the characters before its
current one, however many scans it has made and whatever came of them (`Lexer.line_afterScans`).
-/

namespace MiniPascal

namespace Lexer

/-- From a lexer to a later one some characters are passed, and the newlines among them are
    counted. -/
def Passes (lexer after : Lexer) : Prop :=
  ∃ passed, lexer.text = passed ++ after.text ∧ after.line = lexer.line + passed.count '\n'

theorem Passes.refl (lexer : Lexer) : lexer.Passes lexer :=
  ⟨[], rfl, rfl⟩

theorem Passes.trans {lexer after last : Lexer} (h : lexer.Passes after)
    (h' : after.Passes last) : lexer.Passes last := by
  obtain ⟨passed, htext, hline⟩ := h
  obtain ⟨passed', htext', hline'⟩ := h'
  refine ⟨passed ++ passed', by rw [htext, htext', List.append_assoc], ?_⟩
  rw [hline', hline, List.count_append, Nat.add_assoc]

variable {c : Char} {text rest : List Char} {line : Nat} {words words' : Words}

theorem passes_lineAfter (c : Char) (rest : List Char) (line : Nat) (words words' : Words) :
    Passes ⟨c :: rest, line, words⟩ ⟨rest, lineAfter line c, words'⟩ :=
  ⟨[c], rfl, lineAfter_eq line c⟩

theorem passes_cons (h : c ≠ '\n') : Passes ⟨c :: rest, line, words⟩ ⟨rest, line, words'⟩ := by
  have hpasses := passes_lineAfter c rest line words words'
  rwa [lineAfter, if_neg h] at hpasses

/-- A run of characters other than newlines leaves the line alone. -/
theorem passes_dropWhile {p : Char → Bool} (hp : p '\n' = false) :
    Passes ⟨text, line, words⟩ ⟨text.dropWhile p, line, words'⟩ := by
  refine ⟨text.takeWhile p, List.takeWhile_append_dropWhile.symm, ?_⟩
  have hcount : (text.takeWhile p).count '\n' = 0 :=
    count_eq_zero_of_run (fun _ hc => List.mem_takeWhile_imp hc) hp
  rw [hcount, Nat.add_zero]

/-! ### Blanks and comments -/

theorem passes_skipBlockComment (rest : List Char) (line : Nat) (words : Words) :
    Passes ⟨'\x7b' :: rest, line, words⟩ (skipBlockComment ⟨'\x7b' :: rest, line, words⟩).2 := by
  obtain ⟨inside, after, rfl, hinside, rfl | ⟨after, rfl⟩⟩ := exists_until '\x7d' rest
  · rw [List.append_nil, skipBlockComment_of_unclosed hinside]
    exact ⟨'\x7b' :: inside, by simp, by simp⟩
  · rw [skipBlockComment_of_closed hinside]
    exact ⟨'\x7b' :: (inside ++ ['\x7d']), by simp, by simp⟩

theorem passes_skipLineComment (rest : List Char) (line : Nat) (words : Words) :
    Passes ⟨'%' :: rest, line, words⟩ (skipLineComment ⟨'%' :: rest, line, words⟩) := by
  obtain ⟨inside, after, rfl, hinside, rfl | ⟨after, rfl⟩⟩ := exists_until '\n' rest
  · rw [List.append_nil, skipLineComment_of_unclosed hinside]
    exact ⟨'%' :: inside, by simp, by simp [List.count_eq_zero.2 hinside]⟩
  · rw [skipLineComment_of_closed hinside]
    exact ⟨'%' :: (inside ++ ['\n']), by simp, by simp [List.count_eq_zero.2 hinside]⟩

theorem passes_skipTrivia (lexer : Lexer) : lexer.Passes lexer.skipTrivia.2 := by
  fun_induction skipTrivia lexer with
  | case1 lexer => exact .refl lexer
  | case2 lexer c rest htext _ ih =>
    obtain ⟨text, line, words⟩ := lexer
    subst htext
    exact (passes_lineAfter c rest line words words).trans ih
  | case3 lexer rest after hskip htext hblank ih =>
    obtain ⟨text, line, words⟩ := lexer
    subst htext
    have hcomment := passes_skipBlockComment rest line words
    rw [hskip] at hcomment
    exact hcomment.trans ih
  | case4 lexer rest failure after hskip htext _ =>
    obtain ⟨text, line, words⟩ := lexer
    subst htext
    have hcomment := passes_skipBlockComment rest line words
    rwa [hskip] at hcomment
  | case5 lexer rest htext _ _ ih =>
    obtain ⟨text, line, words⟩ := lexer
    subst htext
    exact (passes_skipLineComment rest line words).trans ih
  | case6 lexer => exact .refl lexer

/-- What is left after blanks and comments does not begin with a newline. -/
theorem head_skipTrivia {lexer after : Lexer} (h : lexer.skipTrivia = (.ok (), after)) :
    ∀ c ∈ after.text.head?, c ≠ '\n' := by
  fun_induction skipTrivia lexer with
  | case1 lexer htext =>
    cases h
    simp [htext]
  | case2 lexer c rest _ _ ih => exact ih h
  | case3 lexer rest after' hskip _ _ ih => exact ih h
  | case4 lexer rest failure after' hskip _ _ => cases h
  | case5 lexer rest _ _ _ ih => exact ih h
  | case6 lexer c rest htext hblank _ _ =>
    cases h
    rw [htext]
    rintro d hd rfl
    cases hd
    exact hblank (by decide)

/-! ### Lexemes -/

theorem passes_scanCharConst (h : c ≠ '\n') :
    Passes ⟨c :: rest, line, words⟩ (scanCharConst ⟨c :: rest, line, words⟩).2 := by
  have hquote : Passes ⟨c :: rest, line, words⟩ ⟨rest, line, words⟩ := passes_cons h
  refine hquote.trans ?_
  simp only [scanCharConst, List.tail_cons]
  split
  · exact .refl _
  · next d after =>
    have hinside := passes_lineAfter d after line words words
    split
    · exact hinside.trans (passes_cons (by decide))
    · exact hinside

theorem passes_scanLiteral (h : c ≠ '\n') :
    Passes ⟨c :: rest, line, words⟩ (scanLiteral ⟨c :: rest, line, words⟩).2 := by
  have hquote : Passes ⟨c :: rest, line, words⟩ ⟨rest, line, words⟩ := passes_cons h
  refine hquote.trans ?_
  have hrun : Passes ⟨rest, line, words⟩ ⟨rest.dropWhile isLiteralChar, line, words⟩ :=
    passes_dropWhile (by decide)
  simp only [scanLiteral, List.tail_cons]
  split
  · next after hcons =>
    rw [hcons] at hrun
    exact hrun.trans (passes_cons (by decide))
  · exact hrun

theorem passes_scanNumber (lexer : Lexer) : lexer.Passes lexer.scanNumber.2 := by
  obtain ⟨text, line, words⟩ := lexer
  have hwhole : Passes ⟨text, line, words⟩ ⟨text.dropWhile Text.isDigit, line, words⟩ :=
    passes_dropWhile (by decide)
  unfold scanNumber
  simp only
  split
  · next rest hpoint =>
    have hpast : Passes ⟨text.dropWhile Text.isDigit, line, words⟩ ⟨rest, line, words⟩ := by
      rw [hpoint]
      exact passes_cons (by decide)
    split
    · exact hwhole
    · split
      · exact hwhole.trans hpast
      · exact (hwhole.trans hpast).trans (passes_dropWhile (by decide))
  · split <;> exact hwhole

theorem passes_scanWord (lexer : Lexer) : lexer.Passes lexer.scanWord.2 := by
  obtain ⟨text, line, words⟩ := lexer
  unfold scanWord
  simp only
  split <;> exact passes_dropWhile (by decide)

theorem passes_scanLexeme (h : c ≠ '\n') :
    Passes ⟨c :: rest, line, words⟩ (scanLexeme ⟨c :: rest, line, words⟩ c rest).2 := by
  have hone : Passes ⟨c :: rest, line, words⟩ ⟨rest, line, words⟩ := passes_cons h
  unfold scanLexeme
  split
  · next pairing hpairing =>
    split
    · next hsecond =>
      obtain ⟨after, rfl⟩ := List.head?_eq_some_iff.1 hsecond
      refine hone.trans (passes_cons ?_)
      -- The second characters of operators are `&`, `|` and `=`.
      unfold pairing? at hpairing
      split at hpairing <;> cases hpairing <;> decide
    · exact hone
  · split
    · exact hone
    · split
      · exact passes_scanCharConst h
      · split
        · exact passes_scanLiteral h
        · split
          · exact passes_scanNumber _
          · split
            · exact passes_scanWord _
            · exact hone

/-- A scan counts the newlines that it passes, whether it yields a token or fails. -/
theorem passes_scan (lexer : Lexer) : lexer.Passes lexer.scan.2 := by
  have htrivia := passes_skipTrivia lexer
  unfold scan
  split
  · next failure after hskip =>
    rwa [hskip] at htrivia
  · next after hskip =>
    have hhead := head_skipTrivia hskip
    rw [hskip] at htrivia
    obtain ⟨text, line, words⟩ := after
    cases text with
    | nil => exact htrivia
    | cons c rest => exact htrivia.trans (passes_scanLexeme (hhead c rfl))

/-! ### Scan after scan -/

/-- The lexer after a number of scans, whatever came of each. -/
def afterScans (n : Nat) (lexer : Lexer) : Lexer :=
  (fun lexer => lexer.scan.2)^[n] lexer

theorem afterScans_succ (n : Nat) (lexer : Lexer) :
    afterScans (n + 1) lexer = (afterScans n lexer).scan.2 :=
  Function.iterate_succ_apply' _ n lexer

/-- The scans of a stream are those of its lexer, one after another. -/
theorem getElem?_scans {lexer : Lexer} {i : Nat} {scan : Scan} (h : lexer.scans[i]? = some scan) :
    scan = ⟨(lexer.afterScans i).scan.1, lexer.afterScans (i + 1)⟩ := by
  fun_induction scans lexer generalizing i with
  | case1 lexer after hscan =>
    cases i with
    | zero =>
      obtain rfl := Option.some.inj h
      simp [afterScans, hscan]
    | succ i => simp at h
  | case2 lexer token after hscan ih | case3 lexer failure after hscan ih =>
    cases i with
    | zero =>
      obtain rfl := Option.some.inj h
      simp [afterScans, hscan]
    | succ i =>
      rw [ih h]
      simp [afterScans, hscan]

end Lexer

end MiniPascal
