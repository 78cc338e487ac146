import MiniPascal.Proofs.Lexer.Splitting

/-!
# Where a lexeme ends

Of what follows a lexeme only the first character matters, and of that only whether the lexeme
would go on with it. So a lexeme stays one before any other rest of the text that does not go
on with it (`Lexeme.before`). A newline goes on with nothing: a text that ends may be followed
by one, and by any other text after it (`Split.append_newline`).
-/

namespace MiniPascal

open Text

/-- The classes of the characters that a lexeme may go on with. -/
def continuations : List (Char → Bool) :=
  [isWordChar, goesOnNumeral, isDigit, (· = '='), (· = '&'), (· = '|')]

/-- A lexeme stays one before a rest that it goes on with no more than with the old one. -/
theorem Lexeme.before {w rest rest' : List Char} {token : Token} (h : Lexeme w token rest)
    (hnext : ∀ p ∈ continuations, NotNext p rest → NotNext p rest') : Lexeme w token rest' := by
  have hword := hnext isWordChar (by simp [continuations])
  have hequals := hnext (· = '=') (by simp [continuations])
  cases h with
  | reserved hw hrest hkind hsame => exact .reserved hw (hword hrest) hkind hsame
  | name hw hrest hother => exact .name hw (hword hrest) hother
  | num hw hrest => exact .num hw (hnext goesOnNumeral (by simp [continuations]) hrest)
  | real hwhole hfraction hrest hx =>
    exact .real hwhole hfraction (hnext isDigit (by simp [continuations]) hrest) hx
  | charConst c => exact .charConst c rest'
  | literal _ hquotes hline => exact .literal rest' hquotes hline
  | pair _ hkind => exact .pair rest' hkind
  | single _ hkind => exact .single rest' hkind
  | half hkind hrest => exact .half hkind (hequals hrest)
  | @lone c _ hc hrest =>
    refine .lone hc (hnext (· = c) ?_ hrest)
    simp only [List.mem_cons, List.not_mem_nil, or_false] at hc
    rcases hc with rfl | rfl <;> simp [continuations]
  | symbol _ hmark hletter hdigit => exact .symbol rest' hmark hletter hdigit

/-- The lexeme of a character constant. -/
theorem Lexeme.eq_of_charConst {w rest : List Char} {c : Char}
    (h : Lexeme w (.charConst c) rest) : w = ['\x27', c, '\x27'] := by
  have hkinds : ∀ kind ∈ Kind.reservedWords ++ Kind.pairs ++ Kind.singles ++ Kind.halves,
      kind ≠ .charConst := by
    decide
  generalize htoken : Token.charConst c = token at h
  cases h with
  | charConst d =>
    obtain ⟨-, hpayload⟩ := Token.mk.inj htoken
    rw [String.singleton_inj.1 (Payload.text.inj hpayload)]
  | reserved _ _ hmem | pair _ hmem | single _ hmem | half hmem =>
    exact absurd (Token.mk.inj htoken).1.symm (hkinds _ (by simp [hmem]))
  | _ => exact absurd (Token.mk.inj htoken).1 (by decide)

/-- A lexeme that does not quote a newline stands on one line. -/
theorem Lexeme.not_mem_newline {w rest : List Char} {token : Token} (h : Lexeme w token rest)
    (hquote : token ≠ .charConst '\n') : '\n' ∉ w := by
  have hrun {p : Char → Bool} (hp : p '\n' = false) {w : List Char} (hw : ∀ c ∈ w, p c = true) :
      '\n' ∉ w := by
    intro hmem
    rw [hw _ hmem] at hp
    cases hp
  have htext (kind : Kind) : '\n' ∉ kind.text.toList :=
    List.count_eq_zero.1 (Lexer.count_text kind)
  cases h with
  | reserved hw | name hw => exact hrun (by decide) hw.2
  | num hw => exact hrun (by decide) hw.2
  | real hwhole hfraction =>
    have hwhole := hrun (by decide) hwhole.2
    have hfraction := hrun (by decide) hfraction.2
    simp [hwhole, hfraction]
  | charConst c =>
    have hc : '\n' ≠ c := by
      rintro rfl
      exact hquote rfl
    simp [hc]
  | literal _ _ hline => simp [hline]
  | pair | single | half => exact htext _
  | lone hc =>
    simp only [List.mem_cons, List.not_mem_nil, or_false] at hc
    rcases hc with rfl | rfl <;> decide
  | symbol _ hmark =>
    intro hmem
    rw [← List.mem_singleton.1 hmem] at hmark
    exact hmark (by decide)

/-! ### Before a letter -/

theorem isWordChar_of_isLetter {c : Char} (h : isLetter c = true) : isWordChar c = true := by
  rw [isWordChar, h, Bool.true_or]

theorem ne_of_isLetter {c d : Char} (hd : isLetter d = false) (hc : isLetter c = true) : c ≠ d := by
  rintro rfl
  rw [hd] at hc
  cases hc

/-- Letters are alike to a lexeme: it goes on with all of them or with none. -/
theorem exists_forall_isLetter {p : Char → Bool} (hp : p ∈ continuations) :
    ∃ b, ∀ c, isLetter c = true → p c = b := by
  have hother {d : Char} (hd : isLetter d = false) (c : Char) (hc : isLetter c = true) :
      decide (c = d) = false := decide_eq_false (ne_of_isLetter hd hc)
  have hdigit (c : Char) (hc : isLetter c = true) : isDigit c = false :=
    Lexer.isDigit_eq_false_of_isLetter hc
  simp only [continuations, List.mem_cons, List.not_mem_nil, or_false] at hp
  rcases hp with rfl | rfl | rfl | rfl | rfl | rfl
  · exact ⟨true, fun _ => isWordChar_of_isLetter⟩
  · refine ⟨false, fun c hc => ?_⟩
    rw [goesOnNumeral, hdigit c hc, hother (by decide) c hc, Bool.or_false]
  · exact ⟨false, hdigit⟩
  · exact ⟨false, hother (by decide)⟩
  · exact ⟨false, hother (by decide)⟩
  · exact ⟨false, hother (by decide)⟩

/-! ### Before a newline -/

theorem notNext_append_newline {p : Char → Bool} (hp : p ∈ continuations) {rest : List Char}
    (h : NotNext p rest) (after : List Char) : NotNext p (rest ++ '\n' :: after) := by
  have hnewline : ∀ p ∈ continuations, p '\n' = false := by
    simp only [continuations, List.forall_mem_cons]
    and_intros <;> decide
  cases rest with
  | nil => exact notNext_cons '\n' after (hnewline p hp)
  | cons c rest => exact notNext_cons c _ (h c rfl)

theorem Trivia.append {t t' : List Char} (h : Trivia t) (h' : Trivia t') : Trivia (t ++ t') := by
  induction h with
  | nil => exact h'
  | blank hc _ ih => exact .blank hc ih
  | block hinside _ ih =>
    rw [List.cons_append, List.append_assoc, List.cons_append]
    exact .block hinside ih
  | line hinside _ ih =>
    rw [List.cons_append, List.append_assoc, List.cons_append]
    exact .line hinside ih

/-- What ends a text is closed by a newline. -/
theorem Ending.trivia {rest : List Char} (h : Ending rest) : Trivia (rest ++ ['\n']) := by
  cases h with
  | nil => exact .blank (by decide) .nil
  | line hinside => exact .line hinside .nil

/-- A text that ends splits as before when a newline follows it, whatever comes after that. -/
theorem Split.append_newline {line line' : Nat} {text rest : List Char}
    {rows : List (Nat × Token)} (h : Split line text rows line' rest) (hrest : Ending rest)
    (after : List Char) :
    Split line (text ++ '\n' :: after) rows (line + (1 + text.count '\n')) after := by
  induction h with
  | @trivia line t rest ht =>
    have hsplit : Split line ((t ++ (rest ++ ['\n'])) ++ after) [] _ after :=
      .trivia (ht.append hrest.trivia)
    have hcount : (t ++ (rest ++ ['\n'])).count '\n' = 1 + (t ++ rest).count '\n' := by
      rw [← List.append_assoc, List.count_append, Nat.add_comm]
      rfl
    rwa [hcount, List.append_assoc, List.append_assoc, List.singleton_append,
      ← List.append_assoc] at hsplit
  | @lexeme line line' t w rest rest' token rows ht hlexeme hsplit ih =>
    have hbefore : Lexeme w token (rest ++ '\n' :: after) :=
      hlexeme.before fun p hp h => notNext_append_newline hp h after
    have hwhole := Split.lexeme ht hbefore (ih hrest)
    rwa [show line + (t ++ w).count '\n' + (1 + rest.count '\n') =
        line + (1 + (t ++ (w ++ rest)).count '\n') by simp only [List.count_append]; omega,
      ← List.append_assoc, ← List.append_assoc, List.append_assoc t] at hwhole

end MiniPascal
