import MiniPascal.Proofs.Lexer.Boundary
import MiniPascal.Proofs.Tokenization

/-!
# Other names in a text

A text in which every name is replaced by another has the same tokens on the same lines, but
for the names (`Renames.tokens`). The new names are words that are no reserved ones; they go
on to be words of their own, as where a word begins or ends is told by letters and digits, of
which an old name and a new one both are made.
-/

namespace MiniPascal

open Text

/-- What a word that is not reserved is known by. -/
def IsName (name : String) : Prop :=
  ∃ w, IsWord w ∧ wordLexeme w = name ∧ ∀ kind ∈ Kind.reservedWords, name ≠ kind.text

/-- A name that is written in lowercase letters, digits and underscores of ASCII. -/
structure IsPlainName (name : String) : Prop where
  word : IsWord name.toList
  ascii : ∀ c ∈ name.toList, c.toNat < 128
  lowercase : ∀ c ∈ name.toList, c.isUpper = false
  not_reserved : ∀ kind ∈ Kind.reservedWords, name ≠ kind.text

variable {r : String → String}

/-- The second text is the first with every name replaced, and the same up to the end but for
    that. A name is taken for what it is known by, however it is written. -/
inductive Renames (r : String → String) : List Char → List Char → Prop
  | ending {t rest : List Char} : Trivia t → Ending rest → Renames r (t ++ rest) (t ++ rest)
  | name {t w rest rest' : List Char} {name : String} : Trivia t → Lexeme w (.ident name) rest →
    Renames r rest rest' → Renames r (t ++ (w ++ rest)) (t ++ ((r name).toList ++ rest'))
  | other {t w rest rest' : List Char} {token : Token} : Trivia t → Lexeme w token rest →
    token.kind ≠ .ident → Renames r rest rest' → Renames r (t ++ (w ++ rest)) (t ++ (w ++ rest'))

/-- The second token is the first with its name replaced, if it is one. -/
inductive RenamedToken (r : String → String) : Token → Token → Prop
  | name {name : String} : IsName name → RenamedToken r (.ident name) (.ident (r name))
  | other {token : Token} : token.kind ≠ .ident → RenamedToken r token token

/-! ### Names -/

/-- A lexeme that is a name is a word that is not reserved. -/
theorem Lexeme.word_of_kind {w rest : List Char} {token : Token} (h : Lexeme w token rest)
    (hkind : token.kind = .ident) : IsWord w ∧ NotNext isWordChar rest ∧
      token = .ident (wordLexeme w) ∧ ∀ kind ∈ Kind.reservedWords, wordLexeme w ≠ kind.text := by
  cases h with
  | name hw hrest hother => exact ⟨hw, hrest, rfl, hother⟩
  | reserved _ _ hmem | pair _ hmem | single _ hmem | half hmem =>
    obtain rfl : _ = Kind.ident := hkind
    exact absurd hmem (by decide)
  | _ => cases hkind

theorem Lexeme.isName {w rest : List Char} {name : String} (h : Lexeme w (.ident name) rest) :
    IsName name := by
  obtain ⟨hw, -, htoken, hother⟩ := h.word_of_kind rfl
  obtain rfl : name = wordLexeme w := Payload.text.inj (Token.mk.inj htoken).2
  exact ⟨w, hw, rfl, hother⟩

namespace IsPlainName

variable {name : String}

/-- A plain name is known by itself. -/
theorem wordLexeme_eq (h : IsPlainName name) : wordLexeme name.toList = name := by
  have hlower : name.toList.map Char.toLower = name.toList := by
    refine (List.map_congr_left fun c hc => ?_).trans (List.map_id _)
    exact dif_neg (of_decide_eq_false (h.lowercase c hc))
  rw [wordLexeme, lowercase_of_ascii h.ascii, hlower, String.ofList_toList]

/-- A plain name spells itself. -/
theorem lexeme (h : IsPlainName name) {rest : List Char} (hrest : NotNext isWordChar rest) :
    Lexeme name.toList (.ident name) rest := by
  have hname := Lexeme.name h.word hrest (by rw [h.wordLexeme_eq]; exact h.not_reserved)
  rwa [h.wordLexeme_eq] at hname

end IsPlainName

/-! ### What follows a lexeme -/

theorem IsWord.head {w : List Char} (h : IsWord w) (rest : List Char) :
    ∃ c, (w ++ rest).head? = some c ∧ isLetter c = true := by
  obtain ⟨c, hc, hletter⟩ := h.1
  exact ⟨c, by rw [List.head?_append, hc, Option.some_or], hletter⟩

/-- A text with other names begins as before, or both begin with letters. -/
theorem Renames.head {text text' : List Char} (hplain : ∀ name, IsName name → IsPlainName (r name))
    (h : Renames r text text') : text.head? = text'.head? ∨
      (∃ c, text.head? = some c ∧ isLetter c = true) ∧
        ∃ c, text'.head? = some c ∧ isLetter c = true := by
  cases h with
  | ending => exact .inl rfl
  | @name t w rest rest' name ht hlexeme hrest =>
    cases t with
    | cons c t => exact .inl rfl
    | nil =>
      obtain ⟨hw, -⟩ := hlexeme.word_of_kind rfl
      exact .inr ⟨hw.head rest, (hplain name hlexeme.isName).word.head rest'⟩
  | @other t w rest rest' token ht hlexeme =>
    left
    obtain ⟨c, w, rfl⟩ := List.exists_cons_of_ne_nil hlexeme.ne_nil
    cases t <;> rfl

/-- A class of characters that takes all letters alike does not tell the two texts apart. -/
theorem Renames.notNext {text text' : List Char}
    (hplain : ∀ name, IsName name → IsPlainName (r name)) (h : Renames r text text')
    {p : Char → Bool} (b : Bool) (hp : ∀ c, isLetter c = true → p c = b) (htext : NotNext p text) :
    NotNext p text' := by
  intro c hc
  rcases h.head hplain with hhead | ⟨⟨d, hd, hletter⟩, d', hd', hletter'⟩
  · exact htext c (hhead ▸ hc)
  · obtain rfl := Option.some.inj (hd'.symm.trans hc)
    rw [hp d' hletter', ← hp d hletter]
    exact htext d hd

/-- A lexeme stays one before a text with other names. -/
theorem Lexeme.renames {w rest rest' : List Char} {token : Token}
    (hplain : ∀ name, IsName name → IsPlainName (r name)) (hlexeme : Lexeme w token rest)
    (h : Renames r rest rest') : Lexeme w token rest' := by
  refine hlexeme.before fun p hp hrest => ?_
  obtain ⟨b, hb⟩ := exists_forall_isLetter hp
  exact h.notNext hplain b hb hrest

/-! ### Tokens -/

/-- The second tokens are the first with their names replaced, on the same lines, and end
    alike. -/
structure RenamedTokens (r : String → String) (tokens tokens' : Tokenization) : Prop where
  rows : List.Forall₂ (fun row row' => row.1 = row'.1 ∧ RenamedToken r row.2 row'.2)
    tokens.rows tokens'.rows
  failure : tokens.failure = tokens'.failure
  line : tokens.lexer.line = tokens'.lexer.line

namespace Lexer

variable {line : Nat} {words : Words}

/-- A numeral among tokens that end without a failure can be shown. -/
theorem lt_of_failure_none {t w rest : List Char} {token : Token} (ht : Trivia t)
    (hlexeme : Lexeme w token rest)
    (hscan : (tokenization ⟨t ++ (w ++ rest), line, words⟩).failure = none) {n : Nat}
    (htoken : token = .num n) : n < numeralBound := by
  refine lt_of_not_oversized hlexeme (fun hoversized => ?_) htoken
  rw [tokenization_trivia ht] at hscan
  refine abort?_of_oversized hoversized (line + t.count '\n') words ?_
  rw [Tokenization.abort?, hscan]
  rfl

/-- A lexeme before other tokens. -/
theorem renamedTokens_lexeme {t w w' rest rest' : List Char} {token token' : Token}
    {words' : Words} (ht : Trivia t) (hlexeme : Lexeme w token rest)
    (hlexeme' : Lexeme w' token' rest') (htoken : RenamedToken r token token')
    (hline : w.count '\n' = w'.count '\n') (hwords : Sound words) (hwords' : Sound words')
    (hscan : (tokenization ⟨t ++ (w ++ rest), line, words⟩).failure = none)
    (ih : ∀ {line : Nat} {words words' : Words}, Sound words → Sound words' →
      (tokenization ⟨rest, line, words⟩).failure = none →
      RenamedTokens r (tokenization ⟨rest, line, words⟩) (tokenization ⟨rest', line, words'⟩)) :
    RenamedTokens r (tokenization ⟨t ++ (w ++ rest), line, words⟩)
      (tokenization ⟨t ++ (w' ++ rest'), line, words'⟩) := by
  have hshown (n : Nat) (h : token = .num n) : n < numeralBound :=
    lt_of_failure_none ht hlexeme hscan h
  have hshown' (n : Nat) (h : token' = .num n) : n < numeralBound := by
    cases htoken with
    | name => cases h
    | other => exact hshown n h
  obtain ⟨known, hknown, htokens⟩ := tokenization_lexeme ht hlexeme hshown hwords line
  obtain ⟨known', hknown', htokens'⟩ := tokenization_lexeme ht hlexeme' hshown' hwords' line
  rw [htokens] at hscan ⊢
  have hcount : (t ++ w').count '\n' = (t ++ w).count '\n' := by
    rw [List.count_append, List.count_append, hline]
  rw [htokens', hcount]
  obtain ⟨hrows, hfailure, hlast⟩ := ih hknown hknown' hscan
  exact ⟨.cons ⟨rfl, htoken⟩ hrows, hfailure, hlast⟩

theorem renamedTokens {text text' : List Char} {words' : Words}
    (hplain : ∀ name, IsName name → IsPlainName (r name)) (h : Renames r text text')
    (hwords : Sound words) (hwords' : Sound words')
    (hscan : (tokenization ⟨text, line, words⟩).failure = none) :
    RenamedTokens r (tokenization ⟨text, line, words⟩) (tokenization ⟨text', line, words'⟩) := by
  induction h generalizing line words words' with
  | ending ht hrest =>
    rw [tokenization_trivia ht, tokenization_trivia ht,
      tokenization_of_end (scan_ending hrest _ words),
      tokenization_of_end (scan_ending hrest _ words')]
    exact ⟨.nil, rfl, rfl⟩
  | @name t w rest rest' name ht hlexeme hrest ih =>
    obtain ⟨hw, hnext, -⟩ := hlexeme.word_of_kind rfl
    have hname := hplain name hlexeme.isName
    have hnext' := hrest.notNext hplain true (fun _ => isWordChar_of_isLetter) hnext
    refine renamedTokens_lexeme ht hlexeme (hname.lexeme hnext') (.name hlexeme.isName) ?_ hwords
      hwords' hscan ih
    rw [count_eq_zero_of_run hw.2 (by decide), count_eq_zero_of_run hname.word.2 (by decide)]
  | other ht hlexeme hkind hrest ih =>
    exact renamedTokens_lexeme ht hlexeme (hlexeme.renames hplain hrest) (.other hkind) rfl hwords
      hwords' hscan ih

end Lexer

/-- A text with other names has the tokens of the text, but for the names. -/
theorem Renames.tokens {text text' : String}
    (hplain : ∀ name, IsName name → IsPlainName (r name))
    (h : Renames r text.toList text'.toList) (hscan : (tokenize text).failure = none) :
    RenamedTokens r (tokenize text) (tokenize text') := by
  rw [tokenize_eq] at hscan ⊢
  rw [tokenize_eq]
  exact Lexer.renamedTokens hplain h Lexer.sound_reserved Lexer.sound_reserved hscan

theorem Split.exists_renames {line line' : Nat} {text rest : List Char}
    {rows : List (Nat × Token)} (h : Split line text rows line' rest) (hrest : Ending rest)
    (r : String → String) : ∃ text', Renames r text text' := by
  induction h with
  | trivia ht => exact ⟨_, .ending ht hrest⟩
  | @lexeme _ _ _ w rest _ token _ ht hlexeme _ ih =>
    obtain ⟨text', htext'⟩ := ih hrest
    by_cases hkind : token.kind = .ident
    · obtain ⟨-, -, rfl, -⟩ := hlexeme.word_of_kind hkind
      exact ⟨_, .name ht hlexeme htext'⟩
    · exact ⟨_, .other ht hlexeme hkind htext'⟩

/-- Every text whose tokens end without a failure can be given other names. -/
theorem exists_renames {text : String} (hscan : (tokenize text).failure = none)
    (r : String → String) : ∃ text' : String, Renames r text.toList text'.toList := by
  have habort : (tokenize text).abort? = none := by rw [Tokenization.abort?, hscan]; rfl
  rcases tokenize_cases ((abort?_tokenize_eq_none_iff text).1 habort) with
    ⟨line, rest, hsplit, hrest, -⟩ | ⟨_, _, _, _, -, -, -, hfault⟩
  · obtain ⟨text', htext'⟩ := hsplit.exists_renames hrest r
    exact ⟨String.ofList text', by rwa [String.toList_ofList]⟩
  · rw [Tokenization.fault?, hscan] at hfault
    cases hfault

end MiniPascal
