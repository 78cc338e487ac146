import MiniPascal.Lexer.Stream

/-!
# What a lexer has not read

A lexer reads one character beyond what it consumes, its current one, and no further. So
what comes after the current character has no part in what has been scanned: a step that
stops within the beginning of a text is the same step before any other rest of the text
(`Lexer.Unreading`). This holds of every step (`unreading_scan`), also of one that fails.
-/

namespace MiniPascal

/-- A run of characters that stops within the beginning of a text is the same run before
    any other rest of the text. -/
theorem dropWhile_of_unread {p : Char → Bool} {x t : List Char}
    (h : t.length < ((x ++ t).dropWhile p).length) :
    ∃ c y, (∀ t', (x ++ t').dropWhile p = c :: (y ++ t')) ∧
      ∀ t', (x ++ t').takeWhile p = (x ++ t).takeWhile p := by
  induction x with
  | nil =>
    have hle := (List.dropWhile_sublist p (l := t)).length_le
    rw [List.nil_append] at h
    omega
  | cons a x ih =>
    simp only [List.cons_append, List.dropWhile_cons, List.takeWhile_cons] at h ⊢
    cases hp : p a with
    | false => exact ⟨a, x, fun _ => rfl, fun _ => rfl⟩
    | true =>
      simp only [hp, if_true] at h ⊢
      obtain ⟨c, y, hdrop, htake⟩ := ih h
      exact ⟨c, y, hdrop, fun t' => congrArg _ (htake t')⟩

namespace Lexer

variable {α : Type}

/-- A step is the same before any other rest of the text, if it stops before the rest. -/
def Unreading (step : Lexer → Outcome α) (x t : List Char) (line : Nat) (words : Words) : Prop :=
  t.length < (step ⟨x ++ t, line, words⟩).2.text.length →
    ∃ result y line' words', ∀ t', step ⟨x ++ t', line, words⟩ = (result, ⟨y ++ t', line', words'⟩)

variable {c : Char} {x t : List Char} {line : Nat} {words : Words}

theorem unreading_skipBlockComment : Unreading skipBlockComment (c :: x) t line words := by
  intro h
  simp only [skipBlockComment, List.cons_append, List.tail_cons] at h ⊢
  split at h
  · exact absurd h (Nat.not_lt_zero _)
  · next hrest =>
    have hlt : t.length < ((x ++ t).dropWhile (· ≠ '\x7d')).length := by
      rw [hrest, List.length_cons]
      exact Nat.lt_succ_of_lt h
    obtain ⟨d, y, hdrop, htake⟩ := dropWhile_of_unread hlt
    simp only [hdrop, htake]
    exact ⟨_, _, _, _, fun _ => rfl⟩

theorem unreading_scanCharConst : Unreading scanCharConst (c :: x) t line words := by
  intro h
  -- The constant is known to be one, or none, from two characters after the quote.
  match x with
  | [] =>
    have hlt : (scanCharConst ⟨c :: t, line, words⟩).2.text.length < (c :: t).length :=
      length_scanCharConst_lt (List.cons_ne_nil c t)
    exact absurd h (Nat.not_lt.2 (Nat.le_of_lt_succ hlt))
  | [d] =>
    simp only [scanCharConst, List.cons_append, List.nil_append, List.tail_cons] at h
    split at h
    · simp only [List.length_cons] at h
      omega
    · exact absurd h (Nat.lt_irrefl _)
  | d :: e :: x =>
    simp only [scanCharConst, List.cons_append, List.tail_cons]
    by_cases he : e = '\x27'
    · subst he
      exact ⟨_, _, _, _, fun _ => rfl⟩
    · refine ⟨.error (.lexical .malformedChar), e :: x, lineAfter line d, words, fun t' => ?_⟩
      split
      · next heq => exact absurd (List.cons.inj heq).1 he
      · rfl

theorem unreading_scanLiteral : Unreading scanLiteral (c :: x) t line words := by
  intro h
  simp only [scanLiteral, List.cons_append, List.tail_cons] at h ⊢
  have hlt : t.length < ((x ++ t).dropWhile isLiteralChar).length := by
    split at h
    · next hrest =>
      rw [hrest, List.length_cons]
      exact Nat.lt_succ_of_lt h
    · exact h
  obtain ⟨d, y, hdrop, htake⟩ := dropWhile_of_unread hlt
  simp only [hdrop, htake]
  by_cases hd : d = '\x22'
  · subst hd
    exact ⟨_, _, _, _, fun _ => rfl⟩
  · refine ⟨.error (.lexical .unclosedLiteral), d :: y, line, words, fun t' => ?_⟩
    split
    · next heq => exact absurd (List.cons.inj heq).1 hd
    · rfl

theorem unreading_scanWord : Unreading scanWord x t line words := by
  intro h
  have hlt : t.length < ((x ++ t).dropWhile Text.isWordChar).length := by
    rwa [length_scanWord_eq] at h
  obtain ⟨d, y, hdrop, htake⟩ := dropWhile_of_unread hlt
  simp only [scanWord, reserve, hdrop, htake]
  split
  · exact ⟨_, d :: y, _, _, fun _ => rfl⟩
  · exact ⟨_, d :: y, _, _, fun _ => rfl⟩

theorem unreading_scanNumber : Unreading scanNumber x t line words := by
  intro h
  have hlt : t.length < ((x ++ t).dropWhile Text.isDigit).length :=
    Nat.lt_of_lt_of_le h (length_scanNumber_le _)
  obtain ⟨d, y, hdrop, htake⟩ := dropWhile_of_unread hlt
  by_cases hd : d = '.'
  · subst hd
    simp only [scanNumber, hdrop, htake] at h ⊢
    split at h
    · exact ⟨_, '.' :: y, _, _, fun _ => rfl⟩
    · have hlt' : t.length < ((y ++ t).dropWhile Text.isDigit).length := by
        split at h
        · next hempty =>
          have hsplit := List.takeWhile_append_dropWhile (p := Text.isDigit) (l := y ++ t)
          rw [List.isEmpty_iff.1 hempty, List.nil_append] at hsplit
          rwa [hsplit]
        · exact h
      obtain ⟨e, z, hdrop', htake'⟩ := dropWhile_of_unread hlt'
      simp only [hdrop', htake']
      split
      · exact ⟨_, y, _, _, fun _ => rfl⟩
      · exact ⟨_, e :: z, _, _, fun _ => rfl⟩
  · have hrun (t' : List Char) : scanNumber ⟨x ++ t', line, words⟩ =
        if digitsValue ((x ++ t).takeWhile Text.isDigit) < numeralBound then
          (.ok (.num (digitsValue ((x ++ t).takeWhile Text.isDigit))), ⟨d :: y ++ t', line, words⟩)
        else (.error .oversizedNumeral, ⟨d :: y ++ t', line, words⟩) := by
      simp only [scanNumber, hdrop, htake]
      split
      · next heq => exact absurd (List.cons.inj heq).1 hd
      · rfl
    simp only [hrun]
    split
    · exact ⟨_, _, _, _, fun _ => rfl⟩
    · exact ⟨_, _, _, _, fun _ => rfl⟩

theorem unreading_scanLexeme :
    Unreading (fun lexer => lexer.scanLexeme c lexer.text.tail) (c :: x) t line words := by
  intro h
  simp only [scanLexeme, List.cons_append, List.tail_cons] at h ⊢
  cases hpair : pairing? c with
  | some pairing =>
    simp only [hpair] at h ⊢
    -- The character after the operator is looked at, so it may not belong to the rest.
    match x with
    | [] =>
      by_cases hsecond : t.head? = some pairing.second
      · simp only [List.nil_append, hsecond, if_true] at h
        have hle : t.tail.length ≤ t.length := List.length_tail ▸ Nat.sub_le _ _
        exact absurd h (Nat.not_lt.2 hle)
      · simp only [List.nil_append, hsecond, if_false] at h
        exact absurd h (Nat.lt_irrefl _)
    | d :: x =>
      by_cases hsecond : some d = some pairing.second
      · simp only [List.cons_append, List.head?_cons, List.tail_cons, hsecond, if_true]
        exact ⟨_, _, _, _, fun _ => rfl⟩
      · simp only [List.cons_append, List.head?_cons, hsecond, if_false]
        exact ⟨_, d :: x, _, _, fun _ => rfl⟩
  | none =>
    simp only [hpair] at h ⊢
    cases hsingle : singleKind? c with
    | some kind => exact ⟨_, _, _, _, fun _ => rfl⟩
    | none =>
      simp only [hsingle] at h ⊢
      by_cases hquote : c = '\x27'
      · simp only [hquote, if_true] at h ⊢
        exact unreading_scanCharConst h
      by_cases hdouble : c = '\x22'
      · simp only [hdouble, if_true] at h ⊢
        exact unreading_scanLiteral h
      simp only [hquote, hdouble, if_false] at h ⊢
      cases hdigit : Text.isDigit c with
      | true =>
        simp only [hdigit, if_true] at h ⊢
        exact unreading_scanNumber (x := c :: x) h
      | false =>
        simp only [hdigit, Bool.false_eq_true, if_false] at h ⊢
        cases hletter : Text.isLetter c with
        | true =>
          simp only [hletter, if_true] at h ⊢
          exact unreading_scanWord (x := c :: x) h
        | false =>
          simp only [hletter, Bool.false_eq_true, if_false] at h ⊢
          exact ⟨_, _, _, _, fun _ => rfl⟩

theorem unreading_skipLineComment :
    Unreading (fun lexer => (.ok (), lexer.skipLineComment)) (c :: x) t line words := by
  intro h
  simp only [skipLineComment, List.cons_append, List.tail_cons] at h ⊢
  split at h
  · exact absurd h (Nat.not_lt_zero _)
  · next hrest =>
    have hlt : t.length < ((x ++ t).dropWhile (· ≠ '\n')).length := by
      rw [hrest, List.length_cons]
      exact Nat.lt_succ_of_lt h
    obtain ⟨d, y, hdrop, -⟩ := dropWhile_of_unread hlt
    simp only [hdrop]
    exact ⟨_, _, _, _, fun _ => rfl⟩

/-- Goes on past blanks and comments after passing over a comment. -/
def skipOn (o : Outcome Unit) : Outcome Unit :=
  match o with
  | (.ok (), after) => after.skipTrivia
  | (.error failure, after) => (.error failure, after)

/-- Going on after a comment is the same before any other rest of the text, if that holds of
    the comment and of what is shorter. -/
theorem unreading_skipOn {step : Lexer → Outcome Unit}
    (hskip : ∀ y line words, y.length < x.length → Unreading skipTrivia y t line words)
    (hstep : Unreading step x t line words)
    (hshorter : (step ⟨x, line, words⟩).2.text.length < x.length) :
    Unreading (fun lexer => skipOn (step lexer)) x t line words := by
  intro h
  have hle (o : Outcome Unit) : (skipOn o).2.text.length ≤ o.2.text.length := by
    obtain ⟨failure | _, after⟩ := o
    · exact Nat.le_refl _
    · exact length_skipTrivia_le after
  obtain ⟨result, y, line', words', hsame⟩ := hstep (Nat.lt_of_lt_of_le h (hle _))
  have hnil := hsame []
  rw [List.append_nil, List.append_nil] at hnil
  rw [hnil] at hshorter
  simp only [hsame] at h ⊢
  cases result with
  | error failure => exact ⟨_, _, _, _, fun _ => rfl⟩
  | ok u => exact hskip y line' words' hshorter h

theorem unreading_skipTrivia (x : List Char) (line : Nat) (words : Words) :
    Unreading skipTrivia x t line words := by
  induction hn : x.length using Nat.strongRecOn generalizing x line words with
  | ind n ih =>
    intro h
    match x with
    | [] => exact absurd h (Nat.not_lt.2 (length_skipTrivia_le ⟨t, line, words⟩))
    | c :: x =>
      have hskip (y : List Char) (line : Nat) (words : Words) (hy : y.length < (c :: x).length) :
          Unreading skipTrivia y t line words := ih y.length (hn ▸ hy) y line words rfl
      simp only [List.cons_append, skipTrivia_cons] at h ⊢
      by_cases hblank : isBlank c = true
      · simp only [hblank, if_true] at h ⊢
        exact hskip x _ _ (Nat.lt_succ_self _) h
      simp only [hblank, Bool.false_eq_true, if_false] at h ⊢
      by_cases hbrace : c = '\x7b'
      · simp only [hbrace, if_true] at h ⊢
        exact unreading_skipOn (x := '\x7b' :: x) hskip unreading_skipBlockComment
          (length_skipBlockComment_lt (List.cons_ne_nil _ _)) h
      simp only [hbrace, if_false] at h ⊢
      by_cases hpercent : c = '%'
      · simp only [hpercent, if_true] at h ⊢
        exact unreading_skipOn (x := '%' :: x) hskip unreading_skipLineComment
          (length_skipLineComment_lt (List.cons_ne_nil _ _)) h
      · simp only [hpercent, if_false]
        exact ⟨_, c :: x, _, _, fun _ => rfl⟩

theorem length_scan_le (lexer : Lexer) :
    lexer.scan.2.text.length ≤ lexer.skipTrivia.2.text.length := by
  rw [scan]
  obtain ⟨failure | _, after⟩ := lexer.skipTrivia
  · exact Nat.le_refl _
  · simp only
    split
    · exact Nat.le_refl _
    · next c rest hafter => exact Nat.le_of_lt (length_scanLexeme_lt hafter)

/-- A scan that stops before the rest of the text is the same before any other rest. -/
theorem unreading_scan (x : List Char) (line : Nat) (words : Words) :
    Unreading scan x t line words := by
  intro h
  have hlt := Nat.lt_of_lt_of_le h (length_scan_le _)
  obtain ⟨result, y, line', words', hsame⟩ := unreading_skipTrivia x line words hlt
  rw [hsame] at hlt
  simp only [scan, hsame] at h ⊢
  cases result with
  | error failure => exact ⟨_, _, _, _, fun _ => rfl⟩
  | ok u =>
    match y with
    | [] => exact absurd hlt (Nat.lt_irrefl _)
    | c :: y =>
      obtain ⟨result, z, line', words', hsame'⟩ := unreading_scanLexeme (c := c) h
      simp only [List.cons_append, List.tail_cons] at hsame' ⊢
      simp only [hsame']
      exact ⟨_, _, _, _, fun _ => rfl⟩

end Lexer

end MiniPascal
