import MiniPascal.Editor.Style
import MiniPascal.Proofs.CaseFolding
import MiniPascal.Proofs.Concatenation

/-!
# Tokens printed and scanned again

Tokens are printed as their source texts with single blanks between them (`printed`). A blank
goes on with no lexeme, so it is enough that each source text is a lexeme of its token
(`Lexeme.sourceText`): the tokens of a text are those of the text that prints them
(`tokenize_printed`). Words must be of ASCII, as the lowercase form of another word need not be
a word, and numerals with a point have no source text that reads back.
-/

namespace MiniPascal

open Text Editor

/-- Tokens as a text, their source texts with single blanks between them. -/
def printed (tokens : List Token) : String :=
  " ".intercalate (tokens.map sourceText)

/-! ### Numerals -/

theorem digitsValue_eq_ofDigitChars (digits : List Char) :
    Lexer.digitsValue digits = Nat.ofDigitChars 10 digits 0 := by
  rw [Nat.ofDigitChars_eq_foldl]
  rfl

/-- The digits that a number is shown with stand for it. -/
theorem decimalValue_toDigits (n : Nat) : decimalValue (Nat.toDigits 10 n) = n := by
  rw [← Lexer.digitsValue_eq, digitsValue_eq_ofDigitChars, Nat.ofDigitChars_ten_toDigits]

theorem isDigits_toDigits (n : Nat) : IsDigits (Nat.toDigits 10 n) :=
  ⟨Nat.toDigits_ne_nil, fun _ hc => Nat.isDigit_of_mem_toDigits (by decide) (by decide) hc⟩

theorem toList_sourceText_num (n : Nat) : (sourceText (.num n)).toList = Nat.toDigits 10 n :=
  Nat.toList_repr

/-! ### Words -/

theorem toLower_toLower (c : Char) : c.toLower.toLower = c.toLower := by
  cases h : c.isAlpha with
  | false => rw [toLower_of_not_isAlpha h, toLower_of_not_isAlpha h]
  | true =>
    have hall : ∀ n : Fin 123, (Char.ofNat n.val).toLower.toLower = (Char.ofNat n.val).toLower := by
      decide
    have hlower := hall ⟨c.toNat, by have := isAlpha_iff.1 h; omega⟩
    rwa [Char.ofNat_toNat] at hlower

/-- The lowercase form of a word of ASCII is that word in another case. -/
theorem sameButCase_lowercase {w : List Char} (hascii : ∀ c ∈ w, c.toNat < 128) :
    SameButCase w (lowercase w) := by
  rw [lowercase_of_ascii hascii, SameButCase, List.map_map]
  exact List.map_congr_left fun c _ => toLower_toLower c

/-- A reserved word is a word, and known by its own spelling. -/
theorem isWord_reserved {kind : Kind} (hkind : kind ∈ Kind.reservedWords) :
    IsWord kind.text.toList ∧ wordLexeme kind.text.toList = kind.text := by
  have hall : ∀ kind ∈ Kind.reservedWords,
      kind.text.toList.head?.any isLetter = true ∧ kind.text.toList.all isWordChar = true ∧
        wordLexeme kind.text.toList = kind.text := by
    decide
  obtain ⟨hhead, hchars, hlexeme⟩ := hall kind hkind
  refine ⟨⟨?_, List.all_eq_true.1 hchars⟩, hlexeme⟩
  cases hfirst : kind.text.toList.head? with
  | none => simp [hfirst] at hhead
  | some c => exact ⟨c, rfl, by simpa [hfirst] using hhead⟩

/-! ### Lexemes -/

/-- All but what is quoted is shown as in a table. -/
theorem sourceText_of_ne {token : Token} (hliteral : token.kind ≠ .literal)
    (hchar : token.kind ≠ .charConst) : Editor.sourceText token = token.text := by
  unfold Editor.sourceText
  split
  · next h => exact absurd h hliteral
  · next h => exact absurd h hchar
  · rfl

/-- The kinds of operators and delimiters are not those of what is quoted. -/
theorem sourceText_operator {kind : Kind}
    (hkind : kind ∈ Kind.reservedWords ++ Kind.pairs ++ Kind.singles ++ Kind.halves) :
    Editor.sourceText (.spelled kind) = kind.text ∧
      Editor.sourceText (.plain kind) = kind.text := by
  have hall : ∀ kind ∈ Kind.reservedWords ++ Kind.pairs ++ Kind.singles ++ Kind.halves,
      kind ≠ .literal ∧ kind ≠ .charConst := by
    decide
  obtain ⟨hliteral, hchar⟩ := hall kind hkind
  exact ⟨sourceText_of_ne hliteral hchar, sourceText_of_ne hliteral hchar⟩

/-- A token is read back from its source text, whatever follows it that no lexeme goes on
    with. -/
def ReadsBack (token : Token) : Prop :=
  ∀ rest, (∀ p ∈ continuations, NotNext p rest) → Lexeme (sourceText token).toList token rest

/-- The token of a lexeme is read back, unless it is a word beyond ASCII or a numeral with a
    point. -/
theorem Lexeme.readsBack {w rest : List Char} {token : Token} (h : Lexeme w token rest)
    (hascii : IsWord w → ∀ c ∈ w, c.toNat < 128) (hreal : token.kind ≠ .real) :
    ReadsBack token := by
  intro after hafter
  have hbefore : Lexeme w token after := h.before fun p hp _ => hafter p hp
  have hword : NotNext isWordChar after := hafter _ (by simp [continuations])
  cases h with
  | reserved _ _ hkind _ =>
    rw [(sourceText_operator (by simp [hkind])).1]
    obtain ⟨hreserved, hsame⟩ := isWord_reserved hkind
    exact .reserved hreserved hword hkind hsame
  | @name w _ hw _ hother =>
    have hcase := sameButCase_lowercase (hascii hw)
    have hlexeme := wordLexeme_recased (hascii hw) hcase
    have htext : (sourceText (.ident (wordLexeme w))).toList = lowercase w := String.toList_ofList
    rw [htext, ← hlexeme]
    exact .name (hw.recased hcase) hword (hlexeme.symm ▸ hother)
  | @num w _ _ _ =>
    rw [toList_sourceText_num]
    have hnum := Lexeme.num (isDigits_toDigits (decimalValue w))
      (hafter goesOnNumeral (by simp [continuations]))
    rwa [decimalValue_toDigits] at hnum
  | real => exact absurd rfl hreal
  | charConst c =>
    have htext : (sourceText (.charConst c)).toList = ['\x27', c, '\x27'] := by
      simp [sourceText, Token.charConst, Payload.display]
    rw [htext]
    exact .charConst c after
  | @literal inside _ hquotes hline =>
    have htext : (sourceText (.literal (String.ofList inside))).toList =
        '\x22' :: (inside ++ ['\x22']) := by
      simp [sourceText, Token.literal, Payload.display]
    rw [htext]
    exact .literal after hquotes hline
  | pair _ hkind =>
    rw [(sourceText_operator (by simp [hkind])).1]
    exact hbefore
  | single _ hkind | half hkind _ =>
    rw [(sourceText_operator (by simp [hkind])).2]
    exact hbefore
  | @lone c | @symbol c =>
    have htext : (sourceText (.symbol c)).toList = [c] := String.toList_singleton c
    rw [htext]
    exact hbefore

/-! ### Texts -/

/-- No lexeme goes on with a blank, nor at the end of a text. -/
theorem notNext_blank {p : Char → Bool} (hp : p ∈ continuations) (rest : List Char) :
    NotNext p (' ' :: rest) := by
  have hblank : ∀ p ∈ continuations, p ' ' = false := by
    simp only [continuations, List.forall_mem_cons]
    and_intros <;> decide
  exact notNext_cons ' ' rest (hblank p hp)

/-- What comes after the first of the tokens that are printed: the others, each after a blank. -/
def printedAfter (tokens : List Token) : List Char :=
  tokens.flatMap fun token => ' ' :: (sourceText token).toList

theorem toList_printed (token : Token) (tokens : List Token) :
    (printed (token :: tokens)).toList = (sourceText token).toList ++ printedAfter tokens := by
  rw [printed, String.toList_intercalate, List.map_cons, List.map_cons]
  induction tokens generalizing token with
  | nil => simp [printedAfter]
  | cons next tokens ih =>
    rw [List.map_cons, List.map_cons, List.intercalate_cons_cons, ih next]
    simp [printedAfter]

theorem notNext_printedAfter {p : Char → Bool} (hp : p ∈ continuations) (tokens : List Token) :
    NotNext p (printedAfter tokens) := by
  cases tokens with
  | nil => exact notNext_nil p
  | cons token tokens => exact notNext_blank hp _

theorem split_printedAfter {tokens : List Token} (h : ∀ token ∈ tokens, ReadsBack token)
    (line : Nat) : ∃ rows last, Split line (printedAfter tokens) rows last [] ∧
      rows.map Prod.snd = tokens := by
  induction tokens generalizing line with
  | nil => exact ⟨[], _, .trivia .nil, rfl⟩
  | cons token tokens ih =>
    obtain ⟨hfirst, hothers⟩ := List.forall_mem_cons.1 h
    have hlexeme := hfirst (printedAfter tokens) fun p hp => notNext_printedAfter hp tokens
    obtain ⟨rows, last, hsplit, hrows⟩ := ih hothers _
    exact ⟨_, last, .lexeme (.blank (by decide) .nil) hlexeme hsplit, by rw [List.map_cons, hrows]⟩

/-- Tokens that are read back are those that the text that prints them splits into. -/
theorem split_printed {tokens : List Token} (h : ∀ token ∈ tokens, ReadsBack token) :
    ∃ rows line, Split 1 (printed tokens).toList rows line [] ∧ rows.map Prod.snd = tokens := by
  cases tokens with
  | nil => exact ⟨[], _, .trivia .nil, rfl⟩
  | cons token tokens =>
    obtain ⟨hfirst, hothers⟩ := List.forall_mem_cons.1 h
    have hlexeme := hfirst (printedAfter tokens) fun p hp => notNext_printedAfter hp tokens
    obtain ⟨rows, line, hsplit, hrows⟩ := split_printedAfter hothers _
    rw [toList_printed]
    exact ⟨_, line, .lexeme .nil hlexeme hsplit, by rw [List.map_cons, hrows]⟩

/-- The rows of a split are lexemes of its text. -/
theorem Split.exists_lexemeAt {line line' : Nat} {text rest : List Char} {rows : List (Nat × Token)}
    (h : Split line text rows line' rest) {row : Nat × Token} (hrow : row ∈ rows) :
    ∃ before w, LexemeAt text before w row.2 := by
  induction h with
  | trivia => cases hrow
  | @lexeme _ _ t w rest _ token rows ht hlexeme _ ih =>
    rcases List.mem_cons.1 hrow with rfl | hrow
    · exact ⟨t, w, [], _, rest, rfl, .trivia ht, hlexeme⟩
    · obtain ⟨before, v, hat⟩ := ih hrow
      exact ⟨_, v, hat.after ht hlexeme⟩

/-- The tokens of a text whose words are of ASCII, none of them a numeral with a point, are those
    of the text that prints them, which has no fault. -/
theorem tokenize_printed {text : String} (hascii : AsciiWords text.toList)
    (hend : (tokenize text).failure = none)
    (hreal : ∀ row ∈ (tokenize text).rows, row.2.kind ≠ .real) :
    (tokenize (printed ((tokenize text).rows.map Prod.snd))).rows.map Prod.snd =
        (tokenize text).rows.map Prod.snd ∧
      (tokenize (printed ((tokenize text).rows.map Prod.snd))).failure = none := by
  obtain ⟨hsize, line, rest, hsplit, -⟩ := exists_split_of_unfailed hend
  have hreads : ∀ token ∈ (tokenize text).rows.map Prod.snd, ReadsBack token := by
    refine List.forall_mem_map.2 fun row hrow => ?_
    obtain ⟨before, w, hat⟩ := hsplit.exists_lexemeAt hrow
    obtain ⟨_, _, _, -, -, hlexeme⟩ := id hat
    exact hlexeme.readsBack (hascii before w row.2 hat) (hreal row hrow)
  obtain ⟨rows, line', hprinted, hrows⟩ := split_printed hreads
  -- The numerals are those of the text, which could be shown.
  have hshown : Lexer.Shown rows := by
    intro row hrow n hn
    have hmem : row.2 ∈ (tokenize text).rows.map Prod.snd := hrows ▸ List.mem_map_of_mem hrow
    obtain ⟨row', hrow', heq⟩ := List.mem_map.1 hmem
    exact Lexer.shown_of_split hsplit hsize row' hrow' n (heq.trans hn)
  obtain ⟨known, -, htokens⟩ := Lexer.tokenization_of_shown hprinted hshown Lexer.sound_reserved
  rw [tokenize_eq, htokens, Lexer.tokenization_of_end (Lexer.scan_ending .nil line' known)]
  exact ⟨by rw [List.append_nil, hrows], rfl⟩

/-- Words change their case, numerals lose their zeros, and what is quoted stays as it is, a
    newline and the beginning of a comment included. -/
theorem tokenize_printed_quoted :
    AsciiWords "Begin=\x7bto\x7d=007'\n'\x22% \x7b\x22&|x".toList ∧
      (tokenize "Begin=\x7bto\x7d=007'\n'\x22% \x7b\x22&|x").failure = none ∧
      (∀ row ∈ (tokenize "Begin=\x7bto\x7d=007'\n'\x22% \x7b\x22&|x").rows, row.2.kind ≠ .real) ∧
      printed ((tokenize "Begin=\x7bto\x7d=007'\n'\x22% \x7b\x22&|x").rows.map Prod.snd) =
        "begin = = 7 '\n' \x22% \x7b\x22 & | x" ∧
      (tokenize "begin = = 7 '\n' \x22% \x7b\x22 & | x").rows.map Prod.snd =
        (tokenize "Begin=\x7bto\x7d=007'\n'\x22% \x7b\x22&|x").rows.map Prod.snd ∧
      (tokenize "begin = = 7 '\n' \x22% \x7b\x22 & | x").failure = none := by
  have hascii : AsciiWords "Begin=\x7bto\x7d=007'\n'\x22% \x7b\x22&|x".toList :=
    asciiWords_of_all (by decide +kernel)
  have hend : (tokenize "Begin=\x7bto\x7d=007'\n'\x22% \x7b\x22&|x").failure = none := by
    decide +kernel
  have hreal : ∀ row ∈ (tokenize "Begin=\x7bto\x7d=007'\n'\x22% \x7b\x22&|x").rows,
      row.2.kind ≠ .real := by
    decide +kernel
  have hprinted : printed ((tokenize "Begin=\x7bto\x7d=007'\n'\x22% \x7b\x22&|x").rows.map
      Prod.snd) = "begin = = 7 '\n' \x22% \x7b\x22 & | x" := by
    decide +kernel
  obtain ⟨htokens, hfailure⟩ := tokenize_printed hascii hend hreal
  rw [hprinted] at htokens hfailure
  exact ⟨hascii, hend, hreal, hprinted, htokens, hfailure⟩

end MiniPascal
