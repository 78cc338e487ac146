import MiniPascal.Proofs.Lexer.Lexeme

/-!
# Scanning what the lexical grammar describes

What a scan makes of a text that begins as the lexical grammar says, form by form: blanks
and comments are passed over (`scan_trivia`), a lexeme yields its token and is consumed to
its last character (`scan_lexeme`), and what is no lexeme fails the scan for its cause.
-/

namespace MiniPascal

open Text

/-! ### Runs of characters -/

theorem notNext_nil (p : Char → Bool) : NotNext p [] := by
  intro c hc
  cases hc

theorem notNext_cons {p : Char → Bool} (c : Char) (rest : List Char) (h : p c = false) :
    NotNext p (c :: rest) := by
  intro d hd
  cases hd
  exact h

theorem notNext_dropWhile (p : Char → Bool) (l : List Char) : NotNext p (l.dropWhile p) := by
  intro c hc
  induction l with
  | nil => cases hc
  | cons a l ih =>
    rw [List.dropWhile_cons] at hc
    split at hc
    · exact ih hc
    · next hp =>
      cases hc
      exact Bool.eq_false_iff.2 hp

/-- A run of characters ends where one comes next that does not belong to it. -/
theorem run_append {p : Char → Bool} {w rest : List Char} (hw : ∀ c ∈ w, p c = true)
    (hrest : NotNext p rest) : (w ++ rest).takeWhile p = w ∧ (w ++ rest).dropWhile p = rest := by
  rw [List.takeWhile_append_of_pos hw, List.dropWhile_append_of_pos hw]
  cases rest with
  | nil => simp
  | cons c rest =>
    have hc : p c = false := hrest c rfl
    rw [List.takeWhile_cons, List.dropWhile_cons, hc]
    simp

theorem run_of_not_mem {c : Char} {inside : List Char} (h : c ∉ inside) :
    ∀ d ∈ inside, decide (d ≠ c) = true :=
  fun _ hd => decide_eq_true fun heq => h (heq ▸ hd)

/-- What comes before the first `c` is a run, and so is a text without one. -/
theorem until_append {c : Char} {inside : List Char} (h : c ∉ inside) (rest : List Char) :
    (inside ++ c :: rest).takeWhile (· ≠ c) = inside ∧
      (inside ++ c :: rest).dropWhile (· ≠ c) = c :: rest :=
  run_append (run_of_not_mem h) (notNext_cons c rest (by simp))

theorem until_end {c : Char} {inside : List Char} (h : c ∉ inside) :
    inside.takeWhile (· ≠ c) = inside ∧ inside.dropWhile (· ≠ c) = [] := by
  have hrun := run_append (run_of_not_mem h) (notNext_nil _)
  rwa [List.append_nil] at hrun

theorem count_eq_zero_of_run {p : Char → Bool} {w : List Char} (hw : ∀ c ∈ w, p c = true)
    (hp : p '\n' = false) : w.count '\n' = 0 := by
  refine List.count_eq_zero.2 fun hmem => ?_
  rw [hw _ hmem] at hp
  cases hp

/-! ### Marks -/

theorem not_mem_marks {p : Char → Bool} {c : Char} (hmarks : marks.any p = false)
    (h : p c = true) : c ∉ marks := by
  intro hc
  rw [List.any_eq_true.2 ⟨c, hc, h⟩] at hmarks
  cases hmarks

theorem not_mem_marks_of_isLetter {c : Char} (h : isLetter c = true) : c ∉ marks :=
  not_mem_marks (by decide) h

theorem not_mem_marks_of_isDigit {c : Char} (h : isDigit c = true) : c ∉ marks :=
  not_mem_marks (by decide) h

namespace Lexer

theorem isBlank_iff {c : Char} : isBlank c = true ↔ c ∈ blanks := by
  simp [isBlank, blanks, or_assoc]

theorem pairing?_eq_none {c : Char} (h : c ∉ marks) : pairing? c = none := by
  unfold pairing?
  split <;> first | rfl | exact absurd (by decide) h

theorem singleKind?_eq_none {c : Char} (h : c ∉ marks) : singleKind? c = none := by
  unfold singleKind?
  split <;> first | rfl | exact absurd (by decide) h

/-- The characters that begin a blank or a comment. -/
def beginsTrivia (c : Char) : Bool :=
  isBlank c || c = '\x7b' || c = '%'

variable {c : Char} {rest : List Char} {line : Nat} {words : Words}

/-- A lexeme is scanned at once where no blank or comment comes first. -/
theorem scan_cons (h : beginsTrivia c = false) : scan ⟨c :: rest, line, words⟩ =
    let (result, last) := scanLexeme ⟨c :: rest, line, words⟩ c rest
    (result.map some, last) := by
  simp only [beginsTrivia, Bool.or_eq_false_iff, decide_eq_false_iff_not] at h
  obtain ⟨⟨hblank, hbrace⟩, hpercent⟩ := h
  simp [scan, skipTrivia_cons, hblank, hbrace, hpercent]

theorem beginsTrivia_eq_false (h : c ∉ marks) : beginsTrivia c = false := by
  rw [marks, List.mem_append, not_or] at h
  obtain ⟨hblank, hmark⟩ := h
  simp only [List.mem_cons, not_or] at hmark
  simp [beginsTrivia, Bool.eq_false_iff.2 (mt isBlank_iff.1 hblank), hmark.1, hmark.2.1]

/-! ### Blanks and comments -/

theorem lineAfter_eq (line : Nat) (c : Char) : lineAfter line c = line + [c].count '\n' := by
  by_cases h : c = '\n'
  · subst h
    rfl
  · simp [lineAfter, h]

theorem skipBlockComment_of_closed {inside : List Char} (h : '\x7d' ∉ inside) :
    skipBlockComment ⟨'\x7b' :: (inside ++ '\x7d' :: rest), line, words⟩ =
      (.ok (), ⟨rest, line + inside.count '\n', words⟩) := by
  obtain ⟨htake, hdrop⟩ := until_append h rest
  simp only [skipBlockComment, List.tail_cons, htake, hdrop]

theorem skipLineComment_of_closed {inside : List Char} (h : '\n' ∉ inside) :
    skipLineComment ⟨'%' :: (inside ++ '\n' :: rest), line, words⟩ = ⟨rest, line + 1, words⟩ := by
  obtain ⟨-, hdrop⟩ := until_append h rest
  simp only [skipLineComment, List.tail_cons, hdrop]

theorem skipLineComment_of_unclosed {inside : List Char} (h : '\n' ∉ inside) :
    skipLineComment ⟨'%' :: inside, line, words⟩ = ⟨[], line, words⟩ := by
  obtain ⟨-, hdrop⟩ := until_end h
  simp only [skipLineComment, List.tail_cons, hdrop]

theorem skipTrivia_append {t : List Char} (h : Trivia t) (rest : List Char) (line : Nat)
    (words : Words) : skipTrivia ⟨t ++ rest, line, words⟩ =
      skipTrivia ⟨rest, line + t.count '\n', words⟩ := by
  induction h generalizing line with
  | nil => rfl
  | @blank c t hc _ ih =>
    rw [List.cons_append, skipTrivia_cons, if_pos (isBlank_iff.2 hc), ih, lineAfter_eq,
      Nat.add_assoc, ← List.count_append]
    rfl
  | @block inside t hinside _ ih =>
    rw [List.cons_append, List.append_assoc, List.cons_append, skipTrivia_cons]
    simp only [skipBlockComment_of_closed hinside]
    rw [if_neg (by decide), if_true, ih, Nat.add_assoc]
    simp
  | @line inside t hinside _ ih =>
    rw [List.cons_append, List.append_assoc, List.cons_append, skipTrivia_cons]
    simp only [skipLineComment_of_closed hinside]
    rw [if_neg (by decide), if_neg (by decide), if_true, ih, Nat.add_assoc]
    simp [List.count_eq_zero.2 hinside, Nat.add_comm]

/-- Blanks and comments before a text change nothing of its first scan but the line. -/
theorem scan_trivia {t : List Char} (h : Trivia t) (rest : List Char) (line : Nat)
    (words : Words) : scan ⟨t ++ rest, line, words⟩ =
      scan ⟨rest, line + t.count '\n', words⟩ := by
  rw [scan, scan, skipTrivia_append h]

/-- At the end of a text the scan yields no token. -/
theorem scan_ending {text : List Char} (h : Ending text) (line : Nat) (words : Words) :
    scan ⟨text, line, words⟩ = (.ok none, ⟨[], line, words⟩) := by
  cases h with
  | nil => simp [scan, skipTrivia]
  | @line inside hinside =>
    rw [scan, skipTrivia_cons, if_neg (by decide), if_neg (by decide), if_pos rfl,
      skipLineComment_of_unclosed hinside]
    simp [skipTrivia]

/-! ### Words -/

/-- A table has every reserved word, and any other word in it is a name. -/
structure Sound (words : Words) : Prop where
  reserved : ∀ kind ∈ Kind.reservedWords,
    words.get? (.text kind.text) = some (Words.reservedToken kind)
  name : ∀ lexeme, (∀ kind ∈ Kind.reservedWords, lexeme ≠ kind.text) →
    ∀ token, words.get? (.text lexeme) = some token → token = .ident lexeme

/-- The table that a lexer begins with is sound. -/
theorem sound_reserved : Sound .reserved where
  reserved := by decide
  name := by
    intro lexeme hlexeme token h
    have hnone : Words.reserved.get? (.text lexeme) = none := by
      refine List.lookup_eq_none_iff.2 fun entry hentry => ?_
      obtain ⟨kind, hkind, rfl⟩ := List.mem_map.1 hentry
      simpa [Words.reservedToken, Token.spelled] using hlexeme kind hkind
    rw [hnone] at h
    cases h

/-- A table stays sound when a name is stored that it did not know. -/
theorem Sound.insert {lexeme : String} (hwords : Sound words)
    (h : words.get? (.text lexeme) = none) : Sound (words.insert (.ident lexeme)) where
  reserved := by
    intro kind hkind
    rw [Words.get?_insert, if_neg, hwords.reserved kind hkind]
    intro heq
    have hsome := hwords.reserved kind hkind
    rw [show Payload.text kind.text = .text lexeme from heq, h] at hsome
    cases hsome
  name := by
    intro other hother token htoken
    rw [Words.get?_insert] at htoken
    split at htoken
    · next heq =>
      cases htoken
      rw [show other = lexeme from Payload.text.inj heq]
    · exact hwords.name other hother token htoken

/-- A scan at a character of a word, a numeral or no lexeme of the language. -/
theorem scan_of_not_mem_marks (h : c ∉ marks) : scan ⟨c :: rest, line, words⟩ =
    let (result, last) :=
      if isDigit c then scanNumber ⟨c :: rest, line, words⟩
      else if isLetter c then scanWord ⟨c :: rest, line, words⟩
      else (.ok (.symbol c), ⟨rest, line, words⟩)
    (result.map some, last) := by
  have hquote : c ≠ '\x27' := fun heq => h (heq ▸ by decide)
  have hquotes : c ≠ '\x22' := fun heq => h (heq ▸ by decide)
  rw [scan_cons (beginsTrivia_eq_false h)]
  simp only [scanLexeme, pairing?_eq_none h, singleKind?_eq_none h, if_neg hquote,
    if_neg hquotes]

theorem isDigit_eq_false_of_isLetter (h : isLetter c = true) : isDigit c = false := by
  refine Bool.eq_false_iff.2 fun hdigit => ?_
  rw [isLetter_eq_false_of_isDigit hdigit] at h
  cases h

/-- A scan at a word yields the token that the table has for it, or a name. -/
theorem scan_word {w : List Char} (hw : IsWord w) (hrest : NotNext isWordChar rest) :
    scan ⟨w ++ rest, line, words⟩ =
      match words.get? (.text (wordLexeme w)) with
      | some token => (.ok (some token), ⟨rest, line, words⟩)
      | none => (.ok (some (.ident (wordLexeme w))),
          ⟨rest, line, words.insert (.ident (wordLexeme w))⟩) := by
  obtain ⟨⟨c, hc, hletter⟩, hchars⟩ := hw
  obtain ⟨w, rfl⟩ : ∃ tail, w = c :: tail := List.head?_eq_some_iff.1 hc
  obtain ⟨htake, hdrop⟩ := run_append hchars hrest
  rw [List.cons_append] at htake hdrop ⊢
  rw [scan_of_not_mem_marks (not_mem_marks_of_isLetter hletter),
    isDigit_eq_false_of_isLetter hletter, hletter, if_neg Bool.false_ne_true, if_pos rfl]
  simp only [scanWord, htake, hdrop]
  rw [← wordLexeme]
  cases words.get? (.text (wordLexeme (c :: w))) <;> rfl

/-! ### Numerals -/

theorem digitsValue_eq (digits : List Char) : digitsValue digits = decimalValue digits := by
  rw [decimalValue, Nat.ofDigits_eq_foldr, List.foldr_map, List.foldr_reverse, digitsValue]
  simp [Nat.add_comm]

/-- A scan at a digit takes a numeral. -/
theorem scan_of_isDigits {w : List Char} (hw : IsDigits w) (rest : List Char) (line : Nat)
    (words : Words) : scan ⟨w ++ rest, line, words⟩ =
      let (result, last) := scanNumber ⟨w ++ rest, line, words⟩
      (result.map some, last) := by
  obtain ⟨hne, hdigits⟩ := hw
  obtain ⟨c, w, rfl⟩ := List.exists_cons_of_ne_nil hne
  have hdigit : isDigit c = true := hdigits c (by simp)
  rw [List.cons_append, scan_of_not_mem_marks (not_mem_marks_of_isDigit hdigit), if_pos hdigit]

theorem notNext_isDigit (h : NotNext goesOnNumeral rest) : NotNext isDigit rest := by
  intro c hc
  have hgoes := h c hc
  rw [goesOnNumeral, Bool.or_eq_false_iff] at hgoes
  exact hgoes.1

/-- A numeral without a point is as large as it may be shown. -/
theorem scanNumber_num {w : List Char} (hw : IsDigits w) (hrest : NotNext goesOnNumeral rest) :
    scanNumber ⟨w ++ rest, line, words⟩ =
      (if decimalValue w < numeralBound then .ok (.num (decimalValue w))
        else .error .oversizedNumeral, ⟨rest, line, words⟩) := by
  obtain ⟨htake, hdrop⟩ := run_append hw.2 (notNext_isDigit hrest)
  -- The point is what tells the two kinds of numerals apart.
  have hpoint : ∀ after, rest ≠ '.' :: after := by
    rintro after rfl
    cases hrest '.' rfl
  simp only [scanNumber, htake, hdrop, digitsValue_eq]
  split <;> rfl

/-- A numeral with a point has a double before it and a digit after it. -/
theorem scanNumber_real {w : List Char} (hw : IsDigits w) (rest : List Char) (line : Nat)
    (words : Words) : (scanNumber ⟨w ++ '.' :: rest, line, words⟩) =
      match Decimal.ofNat? (decimalValue w) with
      | none => (.error .realOverflow, ⟨'.' :: rest, line, words⟩)
      | some x =>
        if (rest.takeWhile isDigit).isEmpty then
          (.error (.lexical .pointWithoutDigit), ⟨rest, line, words⟩)
        else (.ok (.real (addFraction x (rest.takeWhile isDigit))),
          ⟨rest.dropWhile isDigit, line, words⟩) := by
  obtain ⟨htake, hdrop⟩ := run_append hw.2 (notNext_cons '.' rest (by decide))
  cases hx : Decimal.ofNat? (decimalValue w) <;>
    simp only [scanNumber, htake, hdrop, digitsValue_eq, hx]

/-! ### Operators -/

/-- No operator and no delimiter goes on over a line. -/
theorem count_text (kind : Kind) : kind.text.toList.count '\n' = 0 := by
  cases kind <;> decide

/-- A scan at an operator that may have a second character takes it if it is there. -/
theorem scan_of_pairing {pairing : Pairing} (h : pairing? c = some pairing) :
    scan ⟨c :: rest, line, words⟩ =
      if rest.head? = some pairing.second then (.ok (some pairing.pair), ⟨rest.tail, line, words⟩)
      else (.ok (some pairing.single), ⟨rest, line, words⟩) := by
  have htrivia : beginsTrivia c = false := by
    unfold pairing? at h
    split at h <;> first | decide | cases h
  rw [scan_cons htrivia]
  simp only [scanLexeme, h]
  split <;> rfl

theorem exists_pairing_of_pair {kind : Kind} (h : kind ∈ Kind.pairs) :
    ∃ c pairing, pairing? c = some pairing ∧ kind.text.toList = [c, pairing.second] ∧
      pairing.pair = .spelled kind := by
  simp only [Kind.pairs, List.mem_cons, List.not_mem_nil, or_false] at h
  rcases h with rfl | rfl | rfl | rfl | rfl | rfl
  · exact ⟨'&', _, rfl, by decide, rfl⟩
  · exact ⟨'|', _, rfl, by decide, rfl⟩
  · exact ⟨'=', _, rfl, by decide, rfl⟩
  · exact ⟨'!', _, rfl, by decide, rfl⟩
  · exact ⟨'<', _, rfl, by decide, rfl⟩
  · exact ⟨'>', _, rfl, by decide, rfl⟩

theorem exists_pairing_of_half {kind : Kind} (h : kind ∈ Kind.halves) :
    ∃ c pairing, pairing? c = some pairing ∧ kind.text.toList = [c] ∧ pairing.second = '=' ∧
      pairing.single = .plain kind := by
  simp only [Kind.halves, List.mem_cons, List.not_mem_nil, or_false] at h
  rcases h with rfl | rfl | rfl | rfl
  · exact ⟨'=', _, rfl, by decide, rfl, rfl⟩
  · exact ⟨'!', _, rfl, by decide, rfl, rfl⟩
  · exact ⟨'<', _, rfl, by decide, rfl, rfl⟩
  · exact ⟨'>', _, rfl, by decide, rfl, rfl⟩

theorem exists_single {kind : Kind} (h : kind ∈ Kind.singles) :
    ∃ c, kind.text.toList = [c] ∧ pairing? c = none ∧ singleKind? c = some kind := by
  simp only [Kind.singles, List.mem_cons, List.not_mem_nil, or_false] at h
  rcases h with rfl | rfl | rfl | rfl | rfl | rfl | rfl | rfl | rfl
  · exact ⟨'+', by decide, rfl, rfl⟩
  · exact ⟨'-', by decide, rfl, rfl⟩
  · exact ⟨'*', by decide, rfl, rfl⟩
  · exact ⟨'/', by decide, rfl, rfl⟩
  · exact ⟨';', by decide, rfl, rfl⟩
  · exact ⟨':', by decide, rfl, rfl⟩
  · exact ⟨',', by decide, rfl, rfl⟩
  · exact ⟨'(', by decide, rfl, rfl⟩
  · exact ⟨')', by decide, rfl, rfl⟩

/-- An operator whose second character does not follow stands for itself. -/
theorem scan_unpaired {pairing : Pairing} (h : pairing? c = some pairing)
    (hrest : NotNext (· = pairing.second) rest) :
    scan ⟨c :: rest, line, words⟩ = (.ok (some pairing.single), ⟨rest, line, words⟩) := by
  rw [scan_of_pairing h, if_neg]
  intro hhead
  simpa using hrest _ hhead

theorem scan_single {kind : Kind} (hpairing : pairing? c = none)
    (hsingle : singleKind? c = some kind) :
    scan ⟨c :: rest, line, words⟩ = (.ok (some (.plain kind)), ⟨rest, line, words⟩) := by
  have htrivia : beginsTrivia c = false := by
    unfold singleKind? at hsingle
    split at hsingle <;> first | decide | cases hsingle
  rw [scan_cons htrivia]
  simp only [scanLexeme, hpairing, hsingle]
  rfl

/-! ### Quotes -/

theorem isLiteralChar_of_not_mem {inside : List Char} (hquotes : '\x22' ∉ inside)
    (hline : '\n' ∉ inside) : ∀ c ∈ inside, isLiteralChar c = true := by
  intro c hc
  have hne : c ≠ '\x22' := fun heq => hquotes (heq ▸ hc)
  have hne' : c ≠ '\n' := fun heq => hline (heq ▸ hc)
  simp [isLiteralChar, hne, hne']

/-- A scan at a single quote takes the character after it if another one follows. -/
theorem scan_quote (line : Nat) (words : Words) : scan ⟨'\x27' :: rest, line, words⟩ =
    let (result, last) := scanCharConst ⟨'\x27' :: rest, line, words⟩
    (result.map some, last) := by
  rw [scan_cons (by decide)]
  rfl

/-- A scan at a double quote takes the text up to the next one in its line. -/
theorem scan_quotes {inside : List Char} (hquotes : '\x22' ∉ inside) (hline : '\n' ∉ inside)
    (hrest : NotNext isLiteralChar rest) :
    scan ⟨'\x22' :: (inside ++ rest), line, words⟩ =
      if rest.head? = some '\x22' then
        (.ok (some (.literal (String.ofList inside))), ⟨rest.tail, line, words⟩)
      else (.error (.lexical .unclosedLiteral), ⟨rest, line, words⟩) := by
  obtain ⟨htake, hdrop⟩ := run_append (isLiteralChar_of_not_mem hquotes hline) hrest
  have hscan : scanLexeme ⟨'\x22' :: (inside ++ rest), line, words⟩ '\x22' (inside ++ rest) =
      scanLiteral ⟨'\x22' :: (inside ++ rest), line, words⟩ := rfl
  rw [scan_cons (by decide), hscan]
  simp only [scanLiteral, List.tail_cons, htake, hdrop]
  clear hdrop hscan hrest
  split
  · rfl
  · next hne =>
    rw [if_neg]
    · rfl
    · intro hhead
      obtain ⟨after, rfl⟩ := List.head?_eq_some_iff.1 hhead
      exact hne after rfl

/-! ### Lexemes -/

/-- A numeral that is not too large can be shown. -/
theorem lt_of_not_oversized {w : List Char} {token : Token} (h : Lexeme w token rest)
    (hsize : ¬ Oversized (w ++ rest)) {n : Nat} (htoken : token = .num n) : n < numeralBound := by
  cases h with
  | num hw hrest =>
    obtain ⟨-, hpayload⟩ := Token.mk.inj htoken
    obtain rfl : decimalValue w = n := Int.ofNat.inj (Payload.int.inj hpayload)
    exact Nat.lt_of_not_le fun hle => hsize (.num hw hrest hle)
  | _ => cases htoken

/-- A lexeme yields its token and is consumed to its last character, unless it is a numeral
    that cannot be shown. -/
theorem scan_lexeme {w : List Char} {token : Token} (h : Lexeme w token rest)
    (hshown : ∀ n : Nat, token = .num n → n < numeralBound) (hwords : Sound words) (line : Nat) :
    ∃ after, Sound after ∧ scan ⟨w ++ rest, line, words⟩ =
        (.ok (some token), ⟨rest, line + w.count '\n', after⟩) := by
  cases h with
  | @reserved w _ kind hw hrest hkind hlexeme =>
    refine ⟨words, hwords, ?_⟩
    rw [scan_word hw hrest, hlexeme, hwords.reserved kind hkind,
      count_eq_zero_of_run hw.2 (by decide)]
    rfl
  | name hw hrest hother =>
    rw [scan_word hw hrest, count_eq_zero_of_run hw.2 (by decide)]
    -- A name is stored when it is first met, and found under itself from then on.
    cases hget : words.get? (.text (wordLexeme w)) with
    | none => exact ⟨_, hwords.insert hget, rfl⟩
    | some token =>
      refine ⟨words, hwords, ?_⟩
      rw [hwords.name _ hother token hget]
      rfl
  | num hw hrest =>
    refine ⟨words, hwords, ?_⟩
    rw [scan_of_isDigits hw, scanNumber_num hw hrest, if_pos (hshown _ rfl),
      count_eq_zero_of_run hw.2 (by decide)]
    rfl
  | @real whole fraction _ x hwhole hfraction hrest hx =>
    refine ⟨words, hwords, ?_⟩
    obtain ⟨htake, hdrop⟩ := run_append hfraction.2 hrest
    rw [List.append_assoc, List.cons_append, scan_of_isDigits hwhole, scanNumber_real hwhole, hx,
      List.count_append, count_eq_zero_of_run hwhole.2 (by decide),
      List.count_cons_of_ne (by decide), count_eq_zero_of_run hfraction.2 (by decide)]
    simp only [htake, hdrop, List.isEmpty_eq_false_iff.2 hfraction.1]
    rfl
  | charConst c =>
    refine ⟨words, hwords, ?_⟩
    have hcount : ['\x27', c, '\x27'].count '\n' = [c].count '\n' := by
      simp [List.count_cons]
    rw [hcount, ← lineAfter_eq, List.cons_append, scan_quote]
    rfl
  | @literal inside _ hquotes hline =>
    refine ⟨words, hwords, ?_⟩
    rw [List.cons_append, List.append_assoc, List.singleton_append,
      scan_quotes hquotes hline (notNext_cons _ rest (by decide)),
      List.count_cons_of_ne (by decide), List.count_append, List.count_eq_zero.2 hline]
    rfl
  | pair _ hkind =>
    refine ⟨words, hwords, ?_⟩
    obtain ⟨c, pairing, hc, htext, hpair⟩ := exists_pairing_of_pair hkind
    rw [count_text, htext, List.cons_append, List.singleton_append, scan_of_pairing hc,
      if_pos List.head?_cons, hpair]
    rfl
  | single _ hkind =>
    refine ⟨words, hwords, ?_⟩
    rw [count_text]
    obtain ⟨c, htext, hpairing, hsingle⟩ := exists_single hkind
    rw [htext, List.singleton_append, scan_single hpairing hsingle]
    rfl
  | half hkind hrest =>
    refine ⟨words, hwords, ?_⟩
    obtain ⟨c, pairing, hc, htext, hsecond, hsingle⟩ := exists_pairing_of_half hkind
    rw [count_text, htext, List.cons_append, scan_unpaired hc (hsecond ▸ hrest), hsingle]
    rfl
  | @lone c _ hc hrest =>
    refine ⟨words, hwords, ?_⟩
    simp only [List.mem_cons, List.not_mem_nil, or_false] at hc
    rcases hc with rfl | rfl <;>
    · rw [List.cons_append, scan_unpaired rfl hrest]
      rfl
  | @symbol c _ hmark hletter hdigit =>
    refine ⟨words, hwords, ?_⟩
    have hline : c ≠ '\n' := fun heq => hmark (heq ▸ by decide)
    rw [List.singleton_append, scan_of_not_mem_marks hmark, hdigit, hletter,
      List.count_eq_zero.2 (by simpa using hline.symm)]
    rfl

/-! ### What is no lexeme -/

theorem skipBlockComment_of_unclosed {inside : List Char} (h : '\x7d' ∉ inside) :
    skipBlockComment ⟨'\x7b' :: inside, line, words⟩ =
      (.error (.lexical .unclosedComment), ⟨[], line + inside.count '\n', words⟩) := by
  obtain ⟨htake, hdrop⟩ := until_end h
  simp only [skipBlockComment, List.tail_cons, htake, hdrop]

/-- The beginning of a lexeme that is never finished fails the scan for its cause. -/
theorem scan_malformed {cause : LexicalCause} {lines : Nat} {text : List Char}
    (h : Malformed cause lines text) (hsize : ¬ Oversized text) (line : Nat) (words : Words) :
    ∃ after, scan ⟨text, line, words⟩ = (.error (.lexical cause), after) ∧
      after.line = line + lines := by
  cases h with
  | @comment inside hinside =>
    refine ⟨⟨[], line + inside.count '\n', words⟩, ?_, rfl⟩
    rw [scan, skipTrivia_cons, if_neg (by decide), if_pos rfl, skipBlockComment_of_unclosed hinside]
  | @charConst rest hrest =>
    simp only [scan_quote, scanCharConst, List.tail_cons]
    cases rest with
    | nil => exact ⟨_, rfl, rfl⟩
    | cons c rest =>
      refine ⟨⟨rest, lineAfter line c, words⟩, ?_, lineAfter_eq line c⟩
      simp only
      split
      · next after => exact absurd rfl (hrest c after)
      · rfl
  | @literal inside rest hquotes hline hrest =>
    have hnext : NotNext isLiteralChar rest := by
      rintro c hc
      rcases hrest with rfl | hhead
      · cases hc
      · rw [hhead] at hc
        cases hc
        rfl
    refine ⟨⟨rest, line, words⟩, ?_, rfl⟩
    rw [scan_quotes hquotes hline hnext, if_neg]
    rintro hhead
    rcases hrest with rfl | hnewline
    · cases hhead
    · rw [hnewline] at hhead
      cases hhead
  | @point digits rest hdigits hrest =>
    refine ⟨⟨rest, line, words⟩, ?_, rfl⟩
    rw [scan_of_isDigits hdigits, scanNumber_real hdigits]
    cases hx : Decimal.ofNat? (decimalValue digits) with
    | none => exact absurd (.real hdigits hx) hsize
    | some x =>
      obtain ⟨htake, -⟩ := run_append (w := []) (by simp) hrest
      rw [List.nil_append] at htake
      simp only [htake]
      rfl

/-- A numeral too large fails the scan without a lexical error. -/
theorem scan_oversized {text : List Char} (h : Oversized text) (line : Nat) (words : Words) :
    (scan ⟨text, line, words⟩).1 = .error .oversizedNumeral ∨
      (scan ⟨text, line, words⟩).1 = .error .realOverflow := by
  cases h with
  | num hw hrest hle =>
    left
    rw [scan_of_isDigits hw, scanNumber_num hw hrest, if_neg (Nat.not_lt.2 hle)]
    rfl
  | real hw hx =>
    right
    rw [scan_of_isDigits hw, scanNumber_real hw, hx]
    rfl

end Lexer

end MiniPascal
