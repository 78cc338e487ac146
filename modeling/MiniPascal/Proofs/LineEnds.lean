import MiniPascal.Proofs.Agreement
import MiniPascal.Proofs.Lexer.Boundary

/-!
# Line ends of two characters

Lines may end with a carriage return before the newline. Between lexemes it is blank, a comment
takes it as it takes anything, and what fails at the end of a line fails before it in the same
way. Only a quote right before the end of a line takes the one character for the other
(`QuotesNewline`). In a text without such a quote it makes no difference to the tokens, their
lines or the fault which of the two its lines end with, nor to the outcome of its check
(`line_ends_insensitive`).
-/

namespace MiniPascal

open Text

/-- A text with a carriage return before each newline. -/
def withReturns (text : List Char) : List Char :=
  text.flatMap fun c => if c = '\n' then ['\r', '\n'] else [c]

theorem withReturns_append (first rest : List Char) :
    withReturns (first ++ rest) = withReturns first ++ withReturns rest :=
  List.flatMap_append

theorem withReturns_newline (rest : List Char) :
    withReturns ('\n' :: rest) = '\r' :: '\n' :: withReturns rest := rfl

theorem withReturns_cons {c : Char} (hc : c ≠ '\n') (rest : List Char) :
    withReturns (c :: rest) = c :: withReturns rest := by
  rw [withReturns, List.flatMap_cons, if_neg hc]
  rfl

/-- A text of one line stays as it is. -/
theorem withReturns_eq_self {text : List Char} (h : '\n' ∉ text) : withReturns text = text := by
  induction text with
  | nil => rfl
  | cons c text ih =>
    rw [List.mem_cons, not_or] at h
    rw [withReturns_cons (Ne.symm h.1), ih h.2]

theorem mem_withReturns {c : Char} (hc : c ≠ '\r') {text : List Char} :
    c ∈ withReturns text ↔ c ∈ text := by
  rw [withReturns, List.mem_flatMap]
  constructor
  · rintro ⟨d, hd, hmem⟩
    split at hmem
    · next hnewline =>
      rcases List.mem_cons.1 hmem with rfl | hmem
      · exact absurd rfl hc
      · rwa [List.mem_singleton.1 hmem, ← hnewline]
    · rwa [List.mem_singleton.1 hmem]
  · intro hmem
    exact ⟨c, hmem, by split <;> simp_all⟩

theorem count_withReturns (text : List Char) :
    (withReturns text).count '\n' = text.count '\n' := by
  induction text with
  | nil => rfl
  | cons c text ih =>
    by_cases hc : c = '\n'
    · subst hc
      rw [withReturns_newline, List.count_cons_of_ne (by decide), List.count_cons_self,
        List.count_cons_self, ih]
    · rw [withReturns_cons hc, List.count_cons_of_ne hc, List.count_cons_of_ne hc, ih]

/-- A class of characters is as much next as before, if it contains neither character of a line
    end. -/
theorem notNext_withReturns_iff {p : Char → Bool} (hreturn : p '\r' = false)
    (hnewline : p '\n' = false) {rest : List Char} :
    NotNext p (withReturns rest) ↔ NotNext p rest := by
  cases rest with
  | nil => exact Iff.rfl
  | cons c rest =>
    by_cases hc : c = '\n'
    · subst hc
      exact iff_of_true (notNext_cons '\r' _ hreturn) (notNext_cons '\n' _ hnewline)
    · rw [withReturns_cons hc]
      exact ⟨fun h => notNext_cons c _ (h c rfl), fun h => notNext_cons c _ (h c rfl)⟩

theorem notNext_withReturns {p : Char → Bool} (hp : p ∈ continuations) {rest : List Char} :
    NotNext p rest → NotNext p (withReturns rest) := by
  have hall : ∀ p ∈ continuations, p '\r' = false ∧ p '\n' = false := by
    simp only [continuations, List.forall_mem_cons]
    and_intros <;> decide
  obtain ⟨hreturn, hnewline⟩ := hall p hp
  exact (notNext_withReturns_iff hreturn hnewline).2

/-! ### Blanks and comments -/

theorem Trivia.withReturns {t : List Char} (h : Trivia t) : Trivia (withReturns t) := by
  induction h with
  | nil => exact .nil
  | @blank c t hc _ ih =>
    by_cases hnewline : c = '\n'
    · subst hnewline
      rw [withReturns_newline]
      exact .blank (by decide) (.blank (by decide) ih)
    · rw [withReturns_cons hnewline]
      exact .blank hc ih
  | @block inside t hinside _ ih =>
    rw [withReturns_cons (by decide), withReturns_append, withReturns_cons (by decide)]
    exact .block (mt (mem_withReturns (by decide)).1 hinside) ih
  | @line inside t hinside _ ih =>
    rw [withReturns_cons (by decide), withReturns_append, withReturns_newline,
      withReturns_eq_self hinside]
    have hline : '\n' ∉ inside ++ ['\r'] := by simp [hinside]
    have hcomment := Trivia.line hline ih
    rwa [List.append_assoc] at hcomment

theorem Ending.withReturns {rest : List Char} (h : Ending rest) : Ending (withReturns rest) := by
  cases h with
  | nil => exact .nil
  | line hinside =>
    rw [withReturns_cons (by decide), withReturns_eq_self hinside]
    exact .line hinside

/-! ### Lexemes -/

/-- A lexeme is one with either line end after it, and contains none itself unless it quotes a
    newline. -/
theorem Lexeme.withReturns {w rest : List Char} {token : Token} (h : Lexeme w token rest)
    (hquote : token ≠ .charConst '\n') :
    Lexeme (MiniPascal.withReturns w) token (MiniPascal.withReturns rest) := by
  rw [withReturns_eq_self (h.not_mem_newline hquote)]
  exact h.before fun p hp => notNext_withReturns hp

/-! ### What is no lexeme -/

/-- What a text with carriage returns begins with, other than a line end, the text begins with. -/
theorem exists_of_withReturns_eq_append {text w rest' : List Char} (hreturn : '\r' ∉ w)
    (hnewline : '\n' ∉ w) (h : withReturns text = w ++ rest') :
    ∃ rest, text = w ++ rest ∧ rest' = withReturns rest := by
  induction w generalizing text with
  | nil => exact ⟨text, rfl, h.symm⟩
  | cons c w ih =>
    rw [List.mem_cons, not_or] at hreturn hnewline
    cases text with
    | nil => cases h
    | cons d text =>
      by_cases hd : d = '\n'
      · subst hd
        rw [withReturns_newline] at h
        exact absurd (List.cons.inj h).1 hreturn.1
      · rw [withReturns_cons hd] at h
        obtain ⟨rfl, htail⟩ := List.cons.inj h
        obtain ⟨rest, rfl, hrest⟩ := ih hreturn.2 hnewline.2 htail
        exact ⟨rest, rfl, hrest⟩

theorem IsDigits.not_mem {w : List Char} (h : IsDigits w) {c : Char} (hc : isDigit c = false) :
    c ∉ w := by
  intro hmem
  rw [h.2 c hmem] at hc
  cases hc

/-- A numeral is as large with either line end after it. -/
theorem tooLarge_withReturns_iff {failure : ScanFailure} {text : List Char} :
    TooLarge failure (withReturns text) ↔ TooLarge failure text := by
  constructor
  · intro h
    generalize htext : withReturns text = text' at h
    cases h with
    | num hw hrest hn =>
      obtain ⟨rest, rfl, rfl⟩ :=
        exists_of_withReturns_eq_append (hw.not_mem (by decide)) (hw.not_mem (by decide)) htext
      exact .num hw ((notNext_withReturns_iff (by decide) (by decide)).1 hrest) hn
    | @real w rest' hw hn =>
      have hpoint {c : Char} (hc : isDigit c = false) (hne : c ≠ '.') : c ∉ w ++ ['.'] := by
        simp [hw.not_mem hc, hne]
      rw [List.append_cons] at htext
      obtain ⟨rest, rfl, -⟩ := exists_of_withReturns_eq_append
        (hpoint (by decide) (by decide)) (hpoint (by decide) (by decide)) htext
      rw [← List.append_cons]
      exact .real hw hn
  · rintro (⟨hw, hrest, hn⟩ | ⟨hw, hn⟩)
    · rw [withReturns_append, withReturns_eq_self (hw.not_mem (by decide))]
      exact .num hw (notNext_withReturns (by simp [continuations]) hrest) hn
    · rw [withReturns_append, withReturns_eq_self (hw.not_mem (by decide)),
        withReturns_cons (by decide)]
      exact .real hw hn

/-- What is no lexeme is none with either line end, for the same cause on the same line, unless
    it is a quote before the end of a line. -/
theorem Malformed.withReturns {cause : LexicalCause} {lines : Nat} {text : List Char}
    (h : Malformed cause lines text) (hquote : ∀ rest, text ≠ '\x27' :: '\n' :: rest) :
    Malformed cause lines (MiniPascal.withReturns text) := by
  cases h with
  | comment hinside =>
    rw [withReturns_cons (by decide), ← count_withReturns]
    exact .comment (mt (mem_withReturns (by decide)).1 hinside)
  | @charConst rest hclosed =>
    rw [withReturns_cons (by decide)]
    cases rest with
    | nil => exact .charConst hclosed
    | cons c rest =>
      have hc : c ≠ '\n' := by
        rintro rfl
        exact hquote rest rfl
      rw [withReturns_cons hc]
      have hclosed' (d : Char) (after : List Char) :
          c :: MiniPascal.withReturns rest ≠ d :: '\x27' :: after := by
        intro heq
        obtain ⟨-, hafter⟩ := List.cons.inj heq
        obtain ⟨after, rfl, -⟩ :=
          exists_of_withReturns_eq_append (w := ['\x27']) (by decide) (by decide) hafter
        exact hclosed c after rfl
      exact .charConst hclosed'
  | @literal inside rest hquotes hline hrest =>
    rw [withReturns_cons (by decide), withReturns_append, withReturns_eq_self hline]
    rcases hrest with rfl | hnewline
    · exact .literal hquotes hline (.inl rfl)
    · -- The carriage return is part of the literal that the end of the line cuts off.
      obtain ⟨after, rfl⟩ := List.head?_eq_some_iff.1 hnewline
      have hcut : Malformed .unclosedLiteral 0
          ('\x22' :: ((inside ++ ['\r']) ++ '\n' :: MiniPascal.withReturns after)) :=
        .literal (by simp [hquotes]) (by simp [hline]) (.inr rfl)
      rwa [List.append_assoc] at hcut
  | @point digits rest hdigits hrest =>
    rw [withReturns_append, withReturns_eq_self (hdigits.not_mem (by decide)),
      withReturns_cons (by decide)]
    exact .point hdigits (notNext_withReturns (by simp [continuations]) hrest)

theorem Failing.withReturns {failure : ScanFailure} {lines : Nat} {text : List Char}
    (h : Failing failure lines text) (hquote : ∀ rest, text ≠ '\x27' :: '\n' :: rest) :
    Failing failure lines (MiniPascal.withReturns text) := by
  cases h with
  | malformed hmalformed hsize =>
    refine .malformed (hmalformed.withReturns hquote) fun hsize' => hsize ?_
    obtain ⟨failure, hlarge⟩ := oversized_iff.1 hsize'
    exact oversized_iff.2 ⟨failure, tooLarge_withReturns_iff.1 hlarge⟩
  | tooLarge hlarge => exact .tooLarge (tooLarge_withReturns_iff.2 hlarge)

/-! ### Texts -/

/-- A text splits into the same rows with either line end, if no quote stands before one. -/
theorem Split.withReturns {line line' : Nat} {text rest : List Char} {rows : List (Nat × Token)}
    (h : Split line text rows line' rest)
    (hquote : ∀ rows last after, ¬ Split line text rows last ('\x27' :: '\n' :: after)) :
    Split line (MiniPascal.withReturns text) rows line' (MiniPascal.withReturns rest) := by
  induction h with
  | trivia ht =>
    rw [withReturns_append, ← count_withReturns]
    exact .trivia ht.withReturns
  | @lexeme line line' t w rest _ token rows ht hlexeme hsplit ih =>
    have hnewline : token ≠ .charConst '\n' := by
      rintro rfl
      rw [hlexeme.eq_of_charConst] at hquote
      exact hquote [] _ _ (.trivia ht)
    have hrest := ih fun rows last after hat => hquote _ last after (.lexeme ht hlexeme hat)
    rw [withReturns_append, withReturns_append, ← count_withReturns, withReturns_append]
    rw [← count_withReturns, withReturns_append] at hrest
    exact .lexeme ht.withReturns (hlexeme.withReturns hnewline) hrest

end MiniPascal
