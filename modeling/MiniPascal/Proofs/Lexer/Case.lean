import MiniPascal.Proofs.Agreement
import MiniPascal.Proofs.Lexer.Boundary

/-!
# Letters in another case

Of the lexical grammar only words contain letters, quotes apart, and a word of ASCII is known by
its lowercase form. So a text in which letters of ASCII change their case splits into the same
rows, as long as what is quoted stays as it is (`Split.recased`), and what ends it or fails in
it does so as before (`endAlike_of_sameButCase`).
-/

namespace MiniPascal

open Text

/-- The second text is the first with letters of ASCII in another case. -/
def SameButCase (text text' : List Char) : Prop :=
  text'.map Char.toLower = text.map Char.toLower

instance (text text' : List Char) : Decidable (SameButCase text text') :=
  inferInstanceAs (Decidable (_ = _))

/-- A text splits up to the lexeme `w` of a token, which comes after `before`. -/
def LexemeAt (text before w : List Char) (token : Token) : Prop :=
  ∃ rows line rest, text = before ++ (w ++ rest) ∧ Split 1 text rows line (w ++ rest) ∧
    Lexeme w token rest

/-- The words of a text are written in ASCII. -/
def AsciiWords (text : List Char) : Prop :=
  ∀ before w token, LexemeAt text before w token → IsWord w → ∀ c ∈ w, c.toNat < 128

/-- The second text is the first with letters of ASCII in another case, none of them in a string
    literal or a character constant. -/
structure Recased (text text' : List Char) : Prop where
  letters : SameButCase text text'
  quoted : ∀ before w token, LexemeAt text before w token →
    token.kind ∈ [Kind.charConst, .literal] → w <+: text'.drop before.length

/-! ### Characters -/

theorem isAlpha_iff {c : Char} : c.isAlpha = true ↔
    (65 ≤ c.toNat ∧ c.toNat ≤ 90) ∨ 97 ≤ c.toNat ∧ c.toNat ≤ 122 := by
  have halpha : c.isAlpha = (decide (c.val ≥ 'A'.val ∧ c.val ≤ 'Z'.val) ||
      (decide (c.val ≥ 'a'.val) && decide (c.val ≤ 'z'.val))) := rfl
  simp [halpha, UInt32.le_iff_toNat_le, ← Char.toNat_val]

theorem toLower_of_not_isAlpha {c : Char} (h : c.isAlpha = false) : c.toLower = c := by
  have hupper : c.isUpper = false := (Bool.or_eq_false_iff.1 h).1
  exact dif_neg (of_decide_eq_false hupper)

theorem isAlpha_toLower (c : Char) : c.toLower.isAlpha = c.isAlpha := by
  cases h : c.isAlpha with
  | false => rw [toLower_of_not_isAlpha h, h]
  | true =>
    have hall : ∀ n : Fin 123, (Char.ofNat n.val).isAlpha = true →
        (Char.ofNat n.val).toLower.isAlpha = true := by decide
    have hlower := hall ⟨c.toNat, by have := isAlpha_iff.1 h; omega⟩
    rw [Char.ofNat_toNat] at hlower
    exact hlower h

theorem not_isAlpha_of_any {text : List Char} (h : text.any Char.isAlpha = false) :
    ∀ c ∈ text, c.isAlpha = false :=
  fun c hc => Bool.eq_false_iff.2 (List.any_eq_false.1 h c hc)

theorem isLetter_of_isAlpha {c : Char} (h : c.isAlpha = true) : isLetter c = true := by
  rw [isLetter_of_ascii (by have := isAlpha_iff.1 h; omega), h, Bool.true_or]

/-- Only letters of ASCII have another case. -/
theorem eq_or_isAlpha {c c' : Char} (h : c'.toLower = c.toLower) :
    c' = c ∨ c.isAlpha = true ∧ c'.isAlpha = true := by
  have hsame : c'.isAlpha = c.isAlpha := by rw [← isAlpha_toLower, h, isAlpha_toLower]
  cases halpha : c.isAlpha with
  | true => exact .inr ⟨rfl, hsame.trans halpha⟩
  | false =>
    rw [toLower_of_not_isAlpha halpha, toLower_of_not_isAlpha (hsame.trans halpha)] at h
    exact .inl h

/-- A class of characters that takes all letters of ASCII alike does not tell cases apart. -/
theorem apply_eq_of_toLower {p : Char → Bool} {b : Bool} (hp : ∀ c, c.isAlpha = true → p c = b)
    {c c' : Char} (h : c'.toLower = c.toLower) : p c' = p c := by
  rcases eq_or_isAlpha h with rfl | ⟨hc, hc'⟩
  · rfl
  · rw [hp c hc, hp c' hc']

theorem eq_of_toLower {c c' : Char} (hc : c.isAlpha = false) (h : c'.toLower = c.toLower) :
    c' = c := by
  rcases eq_or_isAlpha h with heq | ⟨halpha, -⟩
  · exact heq
  · rw [hc] at halpha
    cases halpha

/-! ### Texts -/

namespace SameButCase

variable {text text' : List Char}

theorem symm (h : SameButCase text text') : SameButCase text' text :=
  Eq.symm h

theorem nil (h : SameButCase [] text') : text' = [] :=
  List.map_eq_nil_iff.1 h

theorem cons {c : Char} (h : SameButCase (c :: text) text') :
    ∃ c' rest, text' = c' :: rest ∧ c'.toLower = c.toLower ∧ SameButCase text rest :=
  List.map_eq_cons_iff.1 h

/-- A character that is no letter of ASCII stays as it is. -/
theorem cons_of_not_isAlpha {c : Char} (hc : c.isAlpha = false)
    (h : SameButCase (c :: text) text') : ∃ rest, text' = c :: rest ∧ SameButCase text rest := by
  obtain ⟨c', rest, rfl, hlower, hrest⟩ := h.cons
  obtain rfl := eq_of_toLower hc hlower
  exact ⟨rest, rfl, hrest⟩

theorem append {rest : List Char} (h : SameButCase (text ++ rest) text') :
    ∃ first last, text' = first ++ last ∧ SameButCase text first ∧ SameButCase rest last := by
  rw [SameButCase, List.map_append] at h
  exact List.map_eq_append_iff.1 h

theorem length (h : SameButCase text text') : text'.length = text.length := by
  rw [← List.length_map Char.toLower, h, List.length_map]

/-- A text without letters of ASCII stays as it is. -/
theorem eq (hplain : ∀ c ∈ text, c.isAlpha = false) (h : SameButCase text text') :
    text' = text := by
  induction text generalizing text' with
  | nil => exact h.nil
  | cons c text ih =>
    obtain ⟨hc, hrest⟩ := List.forall_mem_cons.1 hplain
    obtain ⟨rest, rfl, hsame⟩ := h.cons_of_not_isAlpha hc
    rw [ih hrest hsame]

theorem exists_mem (h : SameButCase text text') {c' : Char} (hc' : c' ∈ text') :
    ∃ c ∈ text, c'.toLower = c.toLower := by
  have hmem : c'.toLower ∈ text'.map Char.toLower := List.mem_map_of_mem hc'
  rw [h] at hmem
  obtain ⟨c, hc, hlower⟩ := List.mem_map.1 hmem
  exact ⟨c, hc, hlower.symm⟩

theorem not_mem {d : Char} (hd : d.isAlpha = false) (h : SameButCase text text')
    (hmem : d ∉ text) : d ∉ text' := by
  intro hd'
  obtain ⟨c, hc, hlower⟩ := h.exists_mem hd'
  obtain rfl := eq_of_toLower hd hlower.symm
  exact hmem hc

theorem forall_mem {p : Char → Bool} {b : Bool} (hp : ∀ c, c.isAlpha = true → p c = b)
    (h : SameButCase text text') (hall : ∀ c ∈ text, p c = true) : ∀ c ∈ text', p c = true := by
  intro c' hc'
  obtain ⟨c, hc, hlower⟩ := h.exists_mem hc'
  rw [apply_eq_of_toLower hp hlower, hall c hc]

theorem count_newline (h : SameButCase text text') : text'.count '\n' = text.count '\n' := by
  have hcount (l : List Char) : (l.map Char.toLower).count '\n' = l.count '\n' := by
    rw [List.count, List.countP_map]
    refine List.countP_congr fun c _ => ?_
    simp only [Function.comp_apply, beq_iff_eq]
    refine ⟨fun hlower => ?_, by rintro rfl; rfl⟩
    exact eq_of_toLower (by decide) (hlower.trans rfl)
  rw [← hcount, h, hcount]

theorem notNext {p : Char → Bool} {b : Bool} (hp : ∀ c, c.isAlpha = true → p c = b)
    (h : SameButCase text text') (hnext : NotNext p text) : NotNext p text' := by
  cases text with
  | nil =>
    rw [h.nil]
    exact notNext_nil p
  | cons c text =>
    obtain ⟨c', rest, rfl, hlower, -⟩ := h.cons
    exact notNext_cons c' rest (by rw [apply_eq_of_toLower hp hlower, hnext c rfl])

/-- What follows a lexeme does not go on with it in another case either. -/
theorem notNext_of_mem {p : Char → Bool} (hp : p ∈ continuations) (h : SameButCase text text')
    (hnext : NotNext p text) : NotNext p text' := by
  obtain ⟨b, hb⟩ := exists_forall_isLetter hp
  exact h.notNext (fun c hc => hb c (isLetter_of_isAlpha hc)) hnext

end SameButCase

/-! ### Blanks and comments -/

theorem Trivia.recased {t t' : List Char} (h : Trivia t) (hcase : SameButCase t t') :
    Trivia t' := by
  induction h generalizing t' with
  | nil =>
    rw [hcase.nil]
    exact .nil
  | @blank c _ hc _ ih =>
    obtain ⟨rest, rfl, hrest⟩ := hcase.cons_of_not_isAlpha (not_isAlpha_of_any (by decide) c hc)
    exact .blank hc (ih hrest)
  | block hinside _ ih =>
    obtain ⟨_, rfl, hafter⟩ := hcase.cons_of_not_isAlpha (by decide)
    obtain ⟨inside', _, rfl, hinside', hafter⟩ := hafter.append
    obtain ⟨rest, rfl, hrest⟩ := hafter.cons_of_not_isAlpha (by decide)
    exact .block (hinside'.not_mem (by decide) hinside) (ih hrest)
  | line hinside _ ih =>
    obtain ⟨_, rfl, hafter⟩ := hcase.cons_of_not_isAlpha (by decide)
    obtain ⟨inside', _, rfl, hinside', hafter⟩ := hafter.append
    obtain ⟨rest, rfl, hrest⟩ := hafter.cons_of_not_isAlpha (by decide)
    exact .line (hinside'.not_mem (by decide) hinside) (ih hrest)

theorem Ending.recased {rest rest' : List Char} (h : Ending rest) (hcase : SameButCase rest rest') :
    Ending rest' := by
  cases h with
  | nil =>
    rw [hcase.nil]
    exact .nil
  | line hinside =>
    obtain ⟨inside', rfl, hinside'⟩ := hcase.cons_of_not_isAlpha (by decide)
    exact .line (hinside'.not_mem (by decide) hinside)

/-! ### Lexemes -/

theorem IsDigits.not_isAlpha {w : List Char} (h : IsDigits w) : ∀ c ∈ w, c.isAlpha = false := by
  intro c hc
  refine Bool.eq_false_iff.2 fun halpha => ?_
  have hletter := isLetter_eq_false_of_isDigit (h.2 c hc)
  rw [isLetter_of_isAlpha halpha] at hletter
  cases hletter

theorem IsWord.recased {w w' : List Char} (h : IsWord w) (hcase : SameButCase w w') :
    IsWord w' := by
  obtain ⟨⟨c, hc, hletter⟩, hchars⟩ := h
  refine ⟨?_, hcase.forall_mem
    (fun _ halpha => isWordChar_of_isLetter (isLetter_of_isAlpha halpha)) hchars⟩
  obtain ⟨w, rfl⟩ : ∃ tail, w = c :: tail := List.head?_eq_some_iff.1 hc
  obtain ⟨c', rest, rfl, hlower, -⟩ := hcase.cons
  refine ⟨c', rfl, ?_⟩
  have hsame : isLetter c' = isLetter c := apply_eq_of_toLower (fun _ => isLetter_of_isAlpha) hlower
  exact hsame.trans hletter

/-- A word of ASCII is known by the same lexeme in another case. -/
theorem wordLexeme_recased {w w' : List Char} (hascii : ∀ c ∈ w, c.toNat < 128)
    (hcase : SameButCase w w') : wordLexeme w' = wordLexeme w := by
  have hascii' : ∀ c ∈ w', c.toNat < 128 := by
    intro c' hc'
    obtain ⟨c, hc, hlower⟩ := hcase.exists_mem hc'
    rcases eq_or_isAlpha hlower with rfl | ⟨-, halpha⟩
    · exact hascii c' hc
    · have := isAlpha_iff.1 halpha
      omega
  rw [wordLexeme, wordLexeme, lowercase_of_ascii hascii, lowercase_of_ascii hascii', hcase]

theorem any_isAlpha_operator : ∀ kind ∈ Kind.pairs ++ Kind.singles ++ Kind.halves,
    kind.text.toList.any Char.isAlpha = false := by
  decide

/-- A lexeme that is not quoted spells the same token in another case. -/
theorem Lexeme.recased {w w' rest rest' : List Char} {token : Token} (h : Lexeme w token rest)
    (hcase : SameButCase w w') (hrest : SameButCase rest rest')
    (hquoted : token.kind ∈ [Kind.charConst, .literal] → w' = w)
    (hascii : IsWord w → ∀ c ∈ w, c.toNat < 128) : Lexeme w' token rest' := by
  have hbefore : Lexeme w token rest' := h.before fun p hp => hrest.notNext_of_mem hp
  have hsame (heq : w' = w) : Lexeme w' token rest' := heq ▸ hbefore
  have hoperator {kind : Kind} (hkind : kind ∈ Kind.pairs ++ Kind.singles ++ Kind.halves)
      (htext : w = kind.text.toList) : Lexeme w' token rest' :=
    hsame (hcase.eq (htext ▸ not_isAlpha_of_any (any_isAlpha_operator kind hkind)))
  have hword : isWordChar ∈ continuations := by simp [continuations]
  cases h with
  | reserved hw hnext hkind hlexeme =>
    refine .reserved (hw.recased hcase) (hrest.notNext_of_mem hword hnext) hkind ?_
    rw [wordLexeme_recased (hascii hw) hcase, hlexeme]
  | name hw hnext hother =>
    rw [← wordLexeme_recased (hascii hw) hcase] at hother ⊢
    exact .name (hw.recased hcase) (hrest.notNext_of_mem hword hnext) hother
  | num hw => exact hsame (hcase.eq hw.not_isAlpha)
  | @real whole fraction _ x hwhole hfraction =>
    refine hsame (hcase.eq fun c hc => ?_)
    rcases List.mem_append.1 hc with hc | hc
    · exact hwhole.not_isAlpha c hc
    · rcases List.mem_cons.1 hc with rfl | hc
      · decide
      · exact hfraction.not_isAlpha c hc
  | charConst | literal => exact hsame (hquoted (by simp [Token.charConst, Token.literal]))
  | pair _ hkind => exact hoperator (by simp [hkind]) rfl
  | single _ hkind => exact hoperator (by simp [hkind]) rfl
  | half hkind => exact hoperator (by simp [hkind]) rfl
  | lone hc =>
    have hlone : ['&', '|'].any Char.isAlpha = false := by decide
    exact hsame (hcase.eq (List.forall_mem_singleton.2 (not_isAlpha_of_any hlone _ hc)))
  | symbol _ _ hletter =>
    refine hsame (hcase.eq (List.forall_mem_singleton.2 (Bool.eq_false_iff.2 fun halpha => ?_)))
    rw [isLetter_of_isAlpha halpha] at hletter
    cases hletter

/-! ### What is no lexeme -/

theorem Malformed.recased {cause : LexicalCause} {lines : Nat} {text text' : List Char}
    (h : Malformed cause lines text) (hcase : SameButCase text text') :
    Malformed cause lines text' := by
  cases h with
  | comment hinside =>
    obtain ⟨inside', rfl, hinside'⟩ := hcase.cons_of_not_isAlpha (by decide)
    rw [← hinside'.count_newline]
    exact .comment (hinside'.not_mem (by decide) hinside)
  | @charConst rest hclosed =>
    obtain ⟨rest', rfl, hrest'⟩ := hcase.cons_of_not_isAlpha (by decide)
    have htake : SameButCase (rest.take 1) (rest'.take 1) := by
      rw [SameButCase, List.map_take, hrest', List.map_take]
    rw [← htake.count_newline]
    -- A closing quote stands in both texts or in none.
    refine .charConst fun c' after' heq => ?_
    rw [heq] at hrest'
    obtain ⟨c, _, rfl, -, hafter⟩ := hrest'.symm.cons
    obtain ⟨after, rfl, -⟩ := hafter.cons_of_not_isAlpha (by decide)
    exact hclosed c after rfl
  | literal hquotes hline hrest =>
    obtain ⟨_, rfl, hinside⟩ := hcase.cons_of_not_isAlpha (by decide)
    obtain ⟨inside', rest', rfl, hinside', hrest'⟩ := hinside.append
    refine .literal (hinside'.not_mem (by decide) hquotes) (hinside'.not_mem (by decide) hline) ?_
    rcases hrest with rfl | hnewline
    · exact .inl hrest'.nil
    · obtain ⟨after, rfl⟩ := List.head?_eq_some_iff.1 hnewline
      obtain ⟨after', rfl, -⟩ := hrest'.cons_of_not_isAlpha (by decide)
      exact .inr rfl
  | point hdigits hrest =>
    obtain ⟨digits', _, rfl, hdigits', hafter⟩ := hcase.append
    obtain ⟨rest', rfl, hrest'⟩ := hafter.cons_of_not_isAlpha (by decide)
    rw [hdigits'.eq hdigits.not_isAlpha]
    exact .point hdigits (hrest'.notNext_of_mem (by simp [continuations]) hrest)

theorem TooLarge.recased {failure : ScanFailure} {text text' : List Char}
    (h : TooLarge failure text) (hcase : SameButCase text text') : TooLarge failure text' := by
  cases h with
  | num hw hrest hn =>
    obtain ⟨w', rest', rfl, hw', hrest'⟩ := hcase.append
    rw [hw'.eq hw.not_isAlpha]
    exact .num hw (hrest'.notNext_of_mem (by simp [continuations]) hrest) hn
  | real hw hn =>
    obtain ⟨w', _, rfl, hw', hafter⟩ := hcase.append
    obtain ⟨rest', rfl, -⟩ := hafter.cons_of_not_isAlpha (by decide)
    rw [hw'.eq hw.not_isAlpha]
    exact .real hw hn

theorem Failing.recased {failure : ScanFailure} {lines : Nat} {text text' : List Char}
    (h : Failing failure lines text) (hcase : SameButCase text text') :
    Failing failure lines text' := by
  cases h with
  | malformed hmalformed hsize =>
    refine .malformed (hmalformed.recased hcase) fun hsize' => hsize ?_
    obtain ⟨failure, hlarge⟩ := oversized_iff.1 hsize'
    exact oversized_iff.2 ⟨failure, hlarge.recased hcase.symm⟩
  | tooLarge hlarge => exact .tooLarge (hlarge.recased hcase)

/-- What ends a text or fails in it does so in another case. -/
theorem endAlike_of_sameButCase {rest rest' : List Char}
    (h : Ending rest ∨ ∃ failure lines, Failing failure lines rest)
    (hcase : SameButCase rest rest') : EndAlike rest rest' := by
  rcases h with hrest | ⟨failure, lines, hrest⟩
  · exact .inl ⟨hrest, hrest.recased hcase⟩
  · exact .inr ⟨failure, lines, hrest, hrest.recased hcase⟩

/-! ### Splits -/

theorem Split.exists_from {line line' : Nat} {text rest : List Char} {rows : List (Nat × Token)}
    (h : Split line text rows line' rest) (first : Nat) :
    ∃ rows' last, Split first text rows' last rest := by
  induction h generalizing first with
  | trivia ht => exact ⟨_, _, .trivia ht⟩
  | lexeme ht hlexeme _ ih =>
    obtain ⟨rows', last, hsplit⟩ := ih _
    exact ⟨_, last, .lexeme ht hlexeme hsplit⟩

/-- What is a lexeme of the rest of a text is one of the text. -/
theorem LexemeAt.after {t w rest before v : List Char} {token token' : Token} (ht : Trivia t)
    (hlexeme : Lexeme w token rest) (h : LexemeAt rest before v token') :
    LexemeAt (t ++ (w ++ rest)) (t ++ (w ++ before)) v token' := by
  obtain ⟨_, _, last, htext, hsplit, hlast⟩ := h
  obtain ⟨rows, line, hsplit⟩ := hsplit.exists_from (1 + (t ++ w).count '\n')
  refine ⟨_, line, last, ?_, .lexeme ht hlexeme hsplit, hlast⟩
  rw [htext]
  simp only [List.append_assoc]

namespace Recased

variable {t w rest t' w' rest' : List Char} {token : Token}

/-- After a lexeme a text goes on in another case. -/
theorem after (h : Recased (t ++ (w ++ rest)) (t' ++ (w' ++ rest'))) (ht : Trivia t)
    (hlexeme : Lexeme w token rest) (ht' : SameButCase t t') (hw' : SameButCase w w')
    (hrest' : SameButCase rest rest') : Recased rest rest' where
  letters := hrest'
  quoted before v token' hat hkind := by
    have hquoted := h.quoted _ v token' (hat.after ht hlexeme) hkind
    rwa [List.length_append, List.length_append, ← ht'.length, ← hw'.length,
      List.drop_length_add_append, List.drop_length_add_append] at hquoted

/-- What is quoted stays as it is. -/
theorem eq_of_quoted (h : Recased (t ++ (w ++ rest)) (t' ++ (w' ++ rest'))) (ht : Trivia t)
    (hlexeme : Lexeme w token rest) (ht' : SameButCase t t') (hw' : SameButCase w w')
    (hkind : token.kind ∈ [Kind.charConst, .literal]) : w' = w := by
  have hquoted := h.quoted t w token ⟨[], _, rest, rfl, .trivia ht, hlexeme⟩ hkind
  rw [← ht'.length, List.drop_left] at hquoted
  exact (List.prefix_of_prefix_length_le hquoted (List.prefix_append w' rest')
    hw'.length.ge).eq_of_length hw'.length.symm |>.symm

end Recased

/-- A text in another case splits into the same rows. -/
theorem Split.recased {line line' : Nat} {text rest text' : List Char} {rows : List (Nat × Token)}
    (h : Split line text rows line' rest) (hcase : Recased text text') (hascii : AsciiWords text) :
    ∃ rest', Split line text' rows line' rest' ∧ SameButCase rest rest' := by
  induction h generalizing text' with
  | trivia ht =>
    obtain ⟨t', rest', rfl, ht', hrest'⟩ := hcase.letters.append
    refine ⟨rest', ?_, hrest'⟩
    rw [← ht'.count_newline]
    exact .trivia (ht.recased ht')
  | @lexeme line line' t w rest _ token rows ht hlexeme _ ih =>
    obtain ⟨t', _, rfl, ht', hafter⟩ := hcase.letters.append
    obtain ⟨w', rest', rfl, hw', hrest'⟩ := hafter.append
    have hat : LexemeAt (t ++ (w ++ rest)) t w token := ⟨[], _, rest, rfl, .trivia ht, hlexeme⟩
    have hlexeme' : Lexeme w' token rest' := hlexeme.recased hw' hrest'
      (hcase.eq_of_quoted ht hlexeme ht' hw') (hascii t w token hat)
    obtain ⟨last, hsplit, hlast⟩ := ih (hcase.after ht hlexeme ht' hw' hrest')
      fun before v token' hat => hascii _ v token' (hat.after ht hlexeme)
    refine ⟨last, ?_, hlast⟩
    have hcount : (t' ++ w').count '\n' = (t ++ w).count '\n' := by
      rw [List.count_append, ht'.count_newline, hw'.count_newline, List.count_append]
    rw [← hcount] at hsplit ⊢
    exact .lexeme (ht.recased ht') hlexeme' hsplit

end MiniPascal
