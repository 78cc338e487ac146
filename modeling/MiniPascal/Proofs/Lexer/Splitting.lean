import MiniPascal.Proofs.Lexer.Scanning
import Mathlib.Data.List.TakeWhile

/-!
# Every text splits

A text splits into lexemes until it ends, or until something begins that is no lexeme
(`exists_split`). For whatever character comes after the blanks and comments, there is a
form of lexeme, or of what is none, that begins with it (`begins_or_breaks`).
-/

namespace MiniPascal

open Text

/-- A text begins with a lexeme. -/
def Begins (text : List Char) : Prop :=
  ∃ w token rest, text = w ++ rest ∧ Lexeme w token rest

/-- A text begins with what is no lexeme. -/
def Breaks (text : List Char) : Prop :=
  (∃ cause lines, Malformed cause lines text) ∨ Oversized text

/-- A text is a run of characters up to the first that does not belong to it, and the rest. -/
theorem exists_run (p : Char → Bool) (text : List Char) :
    ∃ w rest, text = w ++ rest ∧ (∀ c ∈ w, p c = true) ∧ NotNext p rest := by
  refine ⟨text.takeWhile p, text.dropWhile p, List.takeWhile_append_dropWhile.symm, ?_,
    notNext_dropWhile p text⟩
  exact fun c hc => List.mem_takeWhile_imp hc

/-- A text is all that comes before the first `c`, and what is left from there on. -/
theorem exists_until (c : Char) (text : List Char) :
    ∃ inside rest, text = inside ++ rest ∧ c ∉ inside ∧
      (rest = [] ∨ ∃ after, rest = c :: after) := by
  obtain ⟨inside, rest, htext, hinside, hrest⟩ := exists_run (· ≠ c) text
  refine ⟨inside, rest, htext, fun hc => by simpa using hinside c hc, ?_⟩
  cases rest with
  | nil => exact .inl rfl
  | cons d after =>
    have hd : d = c := by simpa using hrest d rfl
    exact .inr ⟨after, by rw [hd]⟩

/-! ### Blanks and comments -/

/-- What comes after all blanks and comments ends the text, or is a comment that is never
    closed, or begins with another character. -/
theorem exists_trivia (text : List Char) : ∃ t rest, text = t ++ rest ∧ Trivia t ∧
    (Ending rest ∨ Breaks rest ∨ ∃ c after, rest = c :: after ∧ Lexer.beginsTrivia c = false) := by
  -- A comment is as long as it happens to be, so the induction is on the length.
  induction hn : text.length using Nat.strong_induction_on generalizing text with
  | _ n ih =>
    subst hn
    cases text with
    | nil => exact ⟨[], [], rfl, .nil, .inl .nil⟩
    | cons c text =>
      by_cases hblank : c ∈ blanks
      · obtain ⟨t, rest, rfl, ht, hrest⟩ := ih _ (by simp) text rfl
        exact ⟨c :: t, rest, rfl, .blank hblank ht, hrest⟩
      by_cases hbrace : c = '\x7b'
      · subst hbrace
        obtain ⟨inside, after, rfl, hinside, rfl | ⟨text, rfl⟩⟩ := exists_until '\x7d' text
        · rw [List.append_nil]
          exact ⟨[], _, rfl, .nil, .inr (.inl (.inl ⟨_, _, .comment hinside⟩))⟩
        · obtain ⟨t, rest, rfl, ht, hrest⟩ := ih _ (by simp; omega) text rfl
          exact ⟨_, rest, by simp, .block hinside ht, hrest⟩
      by_cases hpercent : c = '%'
      · subst hpercent
        obtain ⟨inside, after, rfl, hinside, rfl | ⟨text, rfl⟩⟩ := exists_until '\n' text
        · rw [List.append_nil]
          exact ⟨[], _, rfl, .nil, .inl (.line hinside)⟩
        · obtain ⟨t, rest, rfl, ht, hrest⟩ := ih _ (by simp; omega) text rfl
          exact ⟨_, rest, by simp, .line hinside ht, hrest⟩
      refine ⟨[], c :: text, rfl, .nil, .inr (.inr ⟨c, text, rfl, ?_⟩)⟩
      simp [Lexer.beginsTrivia, Bool.eq_false_iff.2 (mt Lexer.isBlank_iff.1 hblank), hbrace,
        hpercent]

/-! ### Lexemes -/

/-- A word is a lexeme. -/
theorem begins_of_isLetter {c : Char} (h : isLetter c = true) (text : List Char) :
    Begins (c :: text) := by
  obtain ⟨w, rest, rfl, hw, hrest⟩ := exists_run isWordChar text
  have hword : IsWord (c :: w) := by
    refine ⟨⟨c, rfl, h⟩, fun d hd => ?_⟩
    rcases List.mem_cons.1 hd with rfl | hd
    · simp [isWordChar, h]
    · exact hw d hd
  by_cases hreserved : ∃ kind ∈ Kind.reservedWords, wordLexeme (c :: w) = kind.text
  · obtain ⟨kind, hkind, hlexeme⟩ := hreserved
    exact ⟨c :: w, _, rest, rfl, .reserved hword hrest hkind hlexeme⟩
  · exact ⟨c :: w, _, rest, rfl,
      .name hword hrest fun kind hkind hlexeme => hreserved ⟨kind, hkind, hlexeme⟩⟩

/-- A digit begins a run of digits, which a point follows or not. -/
theorem exists_numeral {c : Char} (h : isDigit c = true) (text : List Char) :
    ∃ w rest, c :: text = w ++ rest ∧ IsDigits w ∧
      (NotNext goesOnNumeral rest ∨ ∃ after, rest = '.' :: after) := by
  obtain ⟨w, rest, rfl, hw, hrest⟩ := exists_run isDigit text
  have hwhole : IsDigits (c :: w) := by
    refine ⟨by simp, fun d hd => ?_⟩
    rcases List.mem_cons.1 hd with rfl | hd
    · exact h
    · exact hw d hd
  refine ⟨c :: w, rest, rfl, hwhole, ?_⟩
  by_cases hpoint : ∃ after, rest = '.' :: after
  · exact .inr hpoint
  · refine .inl fun d hd => ?_
    obtain ⟨after, rfl⟩ := List.head?_eq_some_iff.1 hd
    simp only [goesOnNumeral, hrest d rfl, Bool.false_or, decide_eq_false_iff_not]
    rintro rfl
    exact hpoint ⟨after, rfl⟩

/-- A numeral is a lexeme, unless no digit follows its point or it is too large. -/
theorem begins_or_breaks_of_isDigit {c : Char} (h : isDigit c = true) (text : List Char) :
    Begins (c :: text) ∨ Breaks (c :: text) := by
  obtain ⟨w, rest, htext, hw, hrest | ⟨after, rfl⟩⟩ := exists_numeral h text
  · exact .inl ⟨w, _, rest, htext, .num hw hrest⟩
  rw [htext]
  -- The whole part is tried as a double before the fraction is looked at.
  cases hx : Decimal.ofNat? (decimalValue w) with
  | none => exact .inr (.inr (.real hw hx))
  | some x =>
    obtain ⟨fraction, rest, rfl, hfraction, hlast⟩ := exists_run isDigit after
    by_cases hnil : fraction = []
    · subst hnil
      exact .inr (.inl ⟨_, _, .point hw hlast⟩)
    · exact .inl ⟨_, _, rest, by simp, .real hw ⟨hnil, hfraction⟩ hlast hx⟩

/-- What is not quoted as it should be is no lexeme. -/
theorem begins_or_breaks_of_quote (text : List Char) :
    Begins ('\x27' :: text) ∨ Breaks ('\x27' :: text) := by
  by_cases hclosed : ∃ c rest, text = c :: '\x27' :: rest
  · obtain ⟨c, rest, rfl⟩ := hclosed
    exact .inl ⟨_, _, rest, rfl, .charConst c rest⟩
  · exact .inr (.inl ⟨_, _, .charConst fun c rest heq => hclosed ⟨c, rest, heq⟩⟩)

theorem begins_or_breaks_of_quotes (text : List Char) :
    Begins ('\x22' :: text) ∨ Breaks ('\x22' :: text) := by
  obtain ⟨inside, rest, rfl, hinside, hrest⟩ := exists_run Lexer.isLiteralChar text
  have hquotes : '\x22' ∉ inside := fun hc => by cases hinside _ hc
  have hline : '\n' ∉ inside := fun hc => by cases hinside _ hc
  cases rest with
  | nil => exact .inr (.inl ⟨_, _, .literal hquotes hline (.inl rfl)⟩)
  | cons c rest =>
    have hc : c = '\x22' ∨ c = '\n' := by
      have hnext := hrest c rfl
      simpa [Lexer.isLiteralChar, or_iff_not_imp_left] using hnext
    rcases hc with rfl | rfl
    · exact .inl ⟨_, _, rest, by simp, .literal rest hquotes hline⟩
    · exact .inr (.inl ⟨_, _, .literal hquotes hline (.inr rfl)⟩)

/-- An operator of two characters is a lexeme, and its first character is one of its own if
    the second does not follow. -/
theorem begins_of_pair {c second : Char} {kind : Kind} (hkind : kind ∈ Kind.pairs)
    (htext : kind.text.toList = [c, second])
    (hsingle : ∀ rest, NotNext (· = second) rest → Begins (c :: rest)) (text : List Char) :
    Begins (c :: text) := by
  by_cases hhead : text.head? = some second
  · obtain ⟨rest, rfl⟩ := List.head?_eq_some_iff.1 hhead
    exact ⟨_, _, rest, by rw [htext]; rfl, .pair rest hkind⟩
  · refine hsingle text fun d hd => decide_eq_false ?_
    rintro rfl
    exact hhead hd

theorem begins_of_single {c : Char} {kind : Kind} (hkind : kind ∈ Kind.singles)
    (htext : kind.text.toList = [c]) (text : List Char) : Begins (c :: text) :=
  ⟨_, _, text, by rw [htext]; rfl, .single text hkind⟩

theorem begins_of_half {c : Char} {kind : Kind} (hkind : kind ∈ Kind.halves)
    (htext : kind.text.toList = [c]) (text : List Char) (hrest : NotNext (· = '=') text) :
    Begins (c :: text) :=
  ⟨_, _, text, by rw [htext]; rfl, .half hkind hrest⟩

theorem begins_of_lone {c : Char} (hc : c ∈ ['&', '|']) (text : List Char)
    (hrest : NotNext (· = c) text) : Begins (c :: text) :=
  ⟨[c], _, text, rfl, .lone hc hrest⟩

/-- A mark that is no blank and begins no comment begins an operator, a delimiter or quotes. -/
theorem cases_of_mem_marks : ∀ c ∈ marks, Lexer.beginsTrivia c = true ∨
    (c ∈ ['&', '|'] ∧ ∃ kind ∈ Kind.pairs, kind.text.toList = [c, c]) ∨
    (∃ kind ∈ Kind.pairs, ∃ half ∈ Kind.halves,
      kind.text.toList = [c, '='] ∧ half.text.toList = [c]) ∨
    (∃ kind ∈ Kind.singles, kind.text.toList = [c]) ∨ c = '\x27' ∨ c = '\x22' := by
  simp only [marks, blanks, List.cons_append, List.nil_append, List.forall_mem_cons,
    List.not_mem_nil, false_implies, implies_true, and_true]
  and_intros <;> decide

/-- Every character but a blank and one that begins a comment begins a lexeme, or what is
    none. -/
theorem begins_or_breaks {c : Char} (h : Lexer.beginsTrivia c = false) (text : List Char) :
    Begins (c :: text) ∨ Breaks (c :: text) := by
  by_cases hmark : c ∈ marks
  · obtain htrivia | ⟨hlone, kind, hkind, htext⟩ | ⟨kind, hkind, half, hhalf, htext, htext'⟩ |
      ⟨kind, hkind, htext⟩ | rfl | rfl := cases_of_mem_marks c hmark
    · rw [h] at htrivia
      cases htrivia
    · exact .inl (begins_of_pair hkind htext (begins_of_lone hlone) text)
    · exact .inl (begins_of_pair hkind htext (begins_of_half hhalf htext') text)
    · exact .inl (begins_of_single hkind htext text)
    · exact begins_or_breaks_of_quote text
    · exact begins_or_breaks_of_quotes text
  · cases hdigit : isDigit c with
    | true => exact begins_or_breaks_of_isDigit hdigit text
    | false =>
      cases hletter : isLetter c with
      | true => exact .inl (begins_of_isLetter hletter text)
      | false => exact .inl ⟨[c], _, text, rfl, .symbol text hmark hletter hdigit⟩

/-! ### Splits -/

theorem Kind.text_ne_nil (kind : Kind) : kind.text.toList ≠ [] := by
  cases kind <;> decide

theorem Lexeme.ne_nil {w rest : List Char} {token : Token} (h : Lexeme w token rest) :
    w ≠ [] := by
  cases h with
  | reserved hw | name hw =>
    rintro rfl
    obtain ⟨c, hc, -⟩ := hw.1
    cases hc
  | num hw => exact hw.1
  | @pair kind | @single kind | @half kind => exact Kind.text_ne_nil kind
  | _ => simp

/-- Every text splits into lexemes until it ends or something begins that is no lexeme. -/
theorem exists_split (line : Nat) (text : List Char) : ∃ rows line' rest,
    Split line text rows line' rest ∧ (Ending rest ∨ Breaks rest) := by
  induction hn : text.length using Nat.strong_induction_on generalizing line text with
  | _ n ih =>
    subst hn
    obtain ⟨t, rest, rfl, ht, hrest⟩ := exists_trivia text
    obtain hrest | hrest | ⟨c, after, rfl, hc⟩ := hrest
    · exact ⟨_, _, rest, .trivia ht, .inl hrest⟩
    · exact ⟨_, _, rest, .trivia ht, .inr hrest⟩
    obtain ⟨w, token, rest, heq, hlexeme⟩ | hbreaks := begins_or_breaks hc after
    · have hpos := List.length_pos_iff.2 hlexeme.ne_nil
      obtain ⟨rows, line', last, hsplit, hlast⟩ := ih rest.length (by simp [heq]; omega)
        (line + (t ++ w).count '\n') rest rfl
      rw [heq]
      exact ⟨_, line', last, .lexeme ht hlexeme hsplit, hlast⟩
    · exact ⟨_, _, _, .trivia ht, .inr hbreaks⟩

end MiniPascal
