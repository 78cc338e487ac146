import MiniPascal.Proofs.Lexer.Case

/-!
# Uppercase and lowercase

Words are told apart by their lowercase form, so it makes no difference in which case the
letters of ASCII are written, in words and in comments alike: a text in another case has the
same tokens on the same lines, fails for the same cause on the same line, and is checked with
the same outcome (`case_insensitive`). Only what is quoted is taken as it stands.
-/

namespace MiniPascal

/-! ### Texts in another case -/

theorem asciiWords_of_all {text : List Char} (h : text.all (·.toNat < 128) = true) :
    AsciiWords text := by
  rintro before w token ⟨rows, line, rest, rfl, -⟩ - c hc
  exact of_decide_eq_true (List.all_eq_true.1 h c (by simp [hc]))

/-- What is quoted ends with a quote. -/
theorem Lexeme.exists_quote {w rest : List Char} {token : Token} (h : Lexeme w token rest)
    (hkind : token.kind ∈ [Kind.charConst, .literal]) :
    ∃ inside c, w = inside ++ [c] ∧ (c = '\x27' ∨ c = '\x22') := by
  have hkinds : ∀ kind ∈ Kind.reservedWords ++ Kind.pairs ++ Kind.singles ++ Kind.halves,
      kind ∉ [Kind.charConst, .literal] := by decide
  cases h with
  | charConst c => exact ⟨['\x27', c], _, rfl, .inl rfl⟩
  | @literal inside => exact ⟨'\x22' :: inside, _, rfl, .inr rfl⟩
  | @reserved _ _ kind _ _ hmem | @pair kind _ hmem | @single kind _ hmem | @half kind _ hmem =>
    exact absurd hkind (hkinds kind (by simp [hmem]))
  | _ => simp [Token.ident, Token.num, Token.real, Token.symbol] at hkind

/-- After the last quote of a text every letter may change its case. -/
theorem recased_append {first text text' : List Char} (h : SameButCase text text')
    (hquote : '\x27' ∉ text) (hquotes : '\x22' ∉ text) :
    Recased (first ++ text) (first ++ text') where
  letters := by rw [SameButCase, List.map_append, h, List.map_append]
  quoted := by
    rintro before w token ⟨rows, line, rest, htext, -, hlexeme⟩ hkind
    obtain ⟨inside, c, rfl, hc⟩ := hlexeme.exists_quote hkind
    rw [← List.append_assoc] at htext
    rcases List.append_eq_append_iff.1 htext.symm with ⟨after, rfl, -⟩ | ⟨last, hquoted, rfl⟩
    · -- The lexeme stands before all that changes.
      simp
    · -- The quote that ends the lexeme would be among what changes.
      cases last using List.reverseRecOn with
      | nil =>
        rw [List.append_nil] at hquoted
        subst hquoted
        simp
      | append_singleton last d =>
        rw [← List.append_assoc, ← List.append_assoc] at hquoted
        obtain rfl : c = d := List.singleton_inj.1 (List.append_inj_right' hquoted rfl)
        rcases hc with rfl | rfl
        · exact absurd (by simp) hquote
        · exact absurd (by simp) hquotes

/-! ### Tokens and outcomes -/

/-- A text in another case has the same tokens, and they end alike. -/
theorem agrees_of_recased {text text' : String} (h : Recased text.toList text'.toList)
    (hascii : AsciiWords text.toList) : (tokenize text).Agrees (tokenize text') := by
  obtain ⟨rows, line, rest, hsplit, hshown, hrest⟩ := exists_shown_split 1 text.toList
  obtain ⟨rest', hsplit', hcase⟩ := hsplit.recased h hascii
  exact agrees_of_splits hsplit hsplit' hshown (endAlike_of_sameButCase hrest hcase)

/-- A text whose words are written in ASCII has the same tokens in another case, ends or fails
    alike, and is checked with the same outcome. -/
theorem case_insensitive {text text' : String} (hascii : AsciiWords text.toList)
    (h : Recased text.toList text'.toList) :
    (tokenize text').rows = (tokenize text).rows ∧
      (tokenize text').fault? = (tokenize text).fault? ∧
      (tokenize text').abort? = (tokenize text).abort? ∧
      (compile text').outcome = (compile text).outcome := by
  have hagrees := agrees_of_recased h hascii
  exact ⟨hagrees.rows, hagrees.fault?, hagrees.abort?, hagrees.outcome⟩

/-- A keyword and a comment after what is quoted are written in another case. -/
theorem case_insensitive_after_literal :
    AsciiWords "program begin write(\x22Ab\x22) END %Over".toList ∧
      Recased "program begin write(\x22Ab\x22) END %Over".toList
        "program begin write(\x22Ab\x22) End %OVER".toList ∧
      (tokenize "program begin write(\x22Ab\x22) End %OVER").rows =
        (tokenize "program begin write(\x22Ab\x22) END %Over").rows ∧
      (tokenize "program begin write(\x22Ab\x22) End %OVER").fault? =
        (tokenize "program begin write(\x22Ab\x22) END %Over").fault? ∧
      (tokenize "program begin write(\x22Ab\x22) End %OVER").abort? =
        (tokenize "program begin write(\x22Ab\x22) END %Over").abort? ∧
      (compile "program begin write(\x22Ab\x22) End %OVER").outcome =
        (compile "program begin write(\x22Ab\x22) END %Over").outcome := by
  have hascii : AsciiWords "program begin write(\x22Ab\x22) END %Over".toList :=
    asciiWords_of_all (by decide +kernel)
  have hsame : SameButCase ") END %Over".toList ") End %OVER".toList := by decide +kernel
  have hcase : Recased ("program begin write(\x22Ab\x22".toList ++ ") END %Over".toList)
      ("program begin write(\x22Ab\x22".toList ++ ") End %OVER".toList) :=
    recased_append hsame (by decide +kernel) (by decide +kernel)
  rw [← String.toList_append, ← String.toList_append] at hcase
  exact ⟨hascii, hcase, case_insensitive hascii hcase⟩

end MiniPascal
