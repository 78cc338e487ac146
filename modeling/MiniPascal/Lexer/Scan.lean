import MiniPascal.Decimal.Binary64
import MiniPascal.Lexer.Basic
import MiniPascal.Text.Lowercase

/-!
# Scanning

How a lexer finds its next token. It passes over blanks and comments (`skipTrivia`) and
takes the longest lexeme that begins at the current character (`scanLexeme`): an
operator of two characters before one of one, a word or a numeral as far as it goes.

A failed scan leaves the lexer where it noticed the failure, with the line it had
reached, and scanning can go on from there. Every scan consumes something until the
end of the text (`length_scan_lt`), also one that fails.
-/

namespace MiniPascal.Lexer

open Text

/-! ### Blanks and comments -/

/-- The characters that separate lexemes and mean nothing else. -/
def isBlank (c : Char) : Bool :=
  c == ' ' || c == '\t' || c == '\r' || c == '\x08' || c == '\n'

/-- Passes over a block comment, from the current character, which opens it, to the first
    closing brace. -/
def skipBlockComment (lexer : Lexer) : Outcome Unit :=
  let inside := lexer.text.tail
  let line := lexer.line + (inside.takeWhile (· ≠ '\x7d')).count '\n'
  match inside.dropWhile (· ≠ '\x7d') with
  | [] => (.error (.lexical .unclosedComment), { lexer with text := [], line })
  | _ :: rest => (.ok (), { lexer with text := rest, line })

/-- Passes over a line comment, from the current character, which opens it, through the
    end of its line or of the text. -/
def skipLineComment (lexer : Lexer) : Lexer :=
  match lexer.text.tail.dropWhile (· ≠ '\n') with
  | [] => { lexer with text := [] }
  | _ :: rest => { lexer with text := rest, line := lexer.line + 1 }

/-- The line after a character on the given line. -/
def lineAfter (line : Nat) (c : Char) : Nat :=
  if c = '\n' then line + 1 else line

theorem length_dropWhile_le {α : Type} (p : α → Bool) (l : List α) :
    (l.dropWhile p).length ≤ l.length :=
  (List.dropWhile_sublist p).length_le

theorem length_skipBlockComment_lt {lexer : Lexer} (h : lexer.text ≠ []) :
    lexer.skipBlockComment.2.text.length < lexer.text.length := by
  have hpos := List.length_pos_iff.2 h
  have hle := length_dropWhile_le (· ≠ '\x7d') lexer.text.tail
  simp only [List.length_tail] at hle
  simp only [skipBlockComment]
  split
  · simpa using hpos
  · next heq =>
    rw [heq, List.length_cons] at hle
    simp only
    omega

theorem length_skipLineComment_lt {lexer : Lexer} (h : lexer.text ≠ []) :
    lexer.skipLineComment.text.length < lexer.text.length := by
  have hpos := List.length_pos_iff.2 h
  have hle := length_dropWhile_le (· ≠ '\n') lexer.text.tail
  simp only [List.length_tail] at hle
  unfold skipLineComment
  split
  · simpa using hpos
  · next heq =>
    rw [heq, List.length_cons] at hle
    simp only
    omega

/-- Passes over blanks and comments up to the next lexeme or the end of the text. -/
def skipTrivia (lexer : Lexer) : Outcome Unit :=
  match _h : lexer.text with
  | [] => (.ok (), lexer)
  | c :: rest =>
    if isBlank c then
      { lexer with text := rest, line := lineAfter lexer.line c : Lexer }.skipTrivia
    else if c = '\x7b' then
      match _hskip : lexer.skipBlockComment with
      | (.ok (), after) => after.skipTrivia
      | (.error failure, after) => (.error failure, after)
    else if c = '%' then lexer.skipLineComment.skipTrivia
    else (.ok (), lexer)
termination_by lexer.text.length
decreasing_by
  · simp [_h]
  · have := length_skipBlockComment_lt (show lexer.text ≠ [] by simp [_h])
    rwa [_hskip] at this
  · exact length_skipLineComment_lt (by simp [_h])

/-- How blanks and comments are passed over from the current character on. -/
theorem skipTrivia_cons (c : Char) (rest : List Char) (line : Nat) (words : Words) :
    skipTrivia ⟨c :: rest, line, words⟩ =
      if isBlank c then skipTrivia ⟨rest, lineAfter line c, words⟩
      else if c = '\x7b' then
        match skipBlockComment ⟨c :: rest, line, words⟩ with
        | (.ok (), after) => after.skipTrivia
        | (.error failure, after) => (.error failure, after)
      else if c = '%' then (skipLineComment ⟨c :: rest, line, words⟩).skipTrivia
      else (.ok (), ⟨c :: rest, line, words⟩) := by
  rw [skipTrivia]
  split
  · next h => cases h
  · next h =>
    cases h
    congr 2
    split <;> next hskip => simp only [hskip]

/-! ### Lexemes -/

/-- An operator that may have a second character: that character, the token with it and
    the token without it. -/
structure Pairing where
  second : Char
  pair : Token
  single : Token

/-- The operators of two characters, by their first one. -/
def pairing? : Char → Option Pairing
  | '&' => some ⟨'&', .spelled .and, .symbol '&'⟩
  | '|' => some ⟨'|', .spelled .or, .symbol '|'⟩
  | '=' => some ⟨'=', .spelled .equal, .plain .assign⟩
  | '!' => some ⟨'=', .spelled .notEqual, .plain .not⟩
  | '<' => some ⟨'=', .spelled .lessEqual, .plain .less⟩
  | '>' => some ⟨'=', .spelled .greaterEqual, .plain .greater⟩
  | _ => none

/-- The operators and delimiters that are one character and begin no longer one. -/
def singleKind? : Char → Option Kind
  | '+' => some .plus
  | '-' => some .minus
  | '*' => some .times
  | '/' => some .divide
  | ';' => some .semicolon
  | ':' => some .colon
  | ',' => some .comma
  | '(' => some .leftParen
  | ')' => some .rightParen
  | _ => none

/-- Scans a character constant, the current character being its opening quote. -/
def scanCharConst (lexer : Lexer) : Outcome Token :=
  match lexer.text.tail with
  | [] => (.error (.lexical .malformedChar), { lexer with text := [] })
  | c :: rest =>
    let line := lineAfter lexer.line c
    match rest with
    | '\x27' :: rest => (.ok (.charConst c), { lexer with text := rest, line })
    | rest => (.error (.lexical .malformedChar), { lexer with text := rest, line })

/-- The characters that may stand in a string literal. -/
def isLiteralChar (c : Char) : Bool :=
  c != '\x22' && c != '\n'

/-- Scans a string literal, the current character being its opening quote. -/
def scanLiteral (lexer : Lexer) : Outcome Token :=
  let inside := lexer.text.tail
  match inside.dropWhile isLiteralChar with
  | '\x22' :: rest =>
    (.ok (.literal (String.ofList (inside.takeWhile isLiteralChar))), { lexer with text := rest })
  | rest => (.error (.lexical .unclosedLiteral), { lexer with text := rest })

/-- The value of a run of digits. -/
def digitsValue (digits : List Char) : Nat :=
  digits.foldl (fun value d => 10 * value + digitValue d) 0

/-- A double with the digits after a point added to it one by one, each divided by a
    power of ten that is a product of tens in doubles too. -/
def addFraction (x : Float) (digits : List Char) : Float :=
  (digits.foldl (fun (x, scale) d => (x + (digitValue d).toFloat / scale, scale * 10))
    (x, (10 : Float))).1

/-- The least numeral that cannot be shown. -/
def numeralBound : Nat :=
  Nat.pow 10 4300

/-- Scans a numeral from the current character. Its whole part must have a double if a
    point follows, and a digit must follow the point. -/
def scanNumber (lexer : Lexer) : Outcome Token :=
  let value := digitsValue (lexer.text.takeWhile isDigit)
  let after := lexer.text.dropWhile isDigit
  match after with
  | '.' :: rest =>
    match Decimal.ofNat? value with
    | none => (.error .realOverflow, { lexer with text := after })
    | some x =>
      let fraction := rest.takeWhile isDigit
      if fraction.isEmpty then (.error (.lexical .pointWithoutDigit), { lexer with text := rest })
      else (.ok (.real (addFraction x fraction)), { lexer with text := rest.dropWhile isDigit })
  | _ =>
    -- A token is logged as soon as it is scanned, so it must be one that can be shown.
    if value < numeralBound then (.ok (.num value), { lexer with text := after })
    else (.error .oversizedNumeral, { lexer with text := after })

/-- Scans a word from the current character: the token that the table has for its
    lowercase form, or else a name, which it stores there. -/
def scanWord (lexer : Lexer) : Outcome Token :=
  let lexeme := String.ofList (lowercase (lexer.text.takeWhile isWordChar))
  let after := { lexer with text := lexer.text.dropWhile isWordChar }
  match lexer.words.get? (.text lexeme) with
  -- A reserved word is in the table from the beginning.
  | some token => (.ok token, after)
  | none => (.ok (.ident lexeme), after.reserve (.ident lexeme))

/-- Scans the lexeme that begins with the current character `c`, before `rest`. -/
def scanLexeme (lexer : Lexer) (c : Char) (rest : List Char) : Outcome Token :=
  match pairing? c with
  | some pairing =>
    if rest.head? = some pairing.second then (.ok pairing.pair, { lexer with text := rest.tail })
    else (.ok pairing.single, { lexer with text := rest })
  | none =>
    match singleKind? c with
    | some kind => (.ok (.plain kind), { lexer with text := rest })
    | none =>
      if c = '\x27' then lexer.scanCharConst
      else if c = '\x22' then lexer.scanLiteral
      else if isDigit c then lexer.scanNumber
      else if isLetter c then lexer.scanWord
      else (.ok (.symbol c), { lexer with text := rest })

/-- The next token, or none at the end of the text. -/
def scan (lexer : Lexer) : Outcome (Option Token) :=
  match lexer.skipTrivia with
  | (.error failure, after) => (.error failure, after)
  | (.ok (), after) =>
    match after.text with
    | [] => (.ok none, after)
    | c :: rest =>
      let (result, last) := after.scanLexeme c rest
      (result.map some, last)

/-! ### Progress -/

theorem length_skipTrivia_le (lexer : Lexer) :
    lexer.skipTrivia.2.text.length ≤ lexer.text.length := by
  fun_induction skipTrivia lexer with
  | case1 => simp_all
  | case2 lexer c rest h _ ih =>
    simp only at ih
    simp only [h, List.length_cons]
    omega
  | case3 lexer _ after hskip h _ ih =>
    have := length_skipBlockComment_lt (show lexer.text ≠ [] by simp [h])
    rw [hskip] at this
    exact Nat.le_of_lt (Nat.lt_of_le_of_lt ih this)
  | case4 lexer _ failure after hskip h _ =>
    have := length_skipBlockComment_lt (show lexer.text ≠ [] by simp [h])
    rw [hskip] at this
    exact Nat.le_of_lt this
  | case5 lexer _ h _ _ ih =>
    exact Nat.le_of_lt (Nat.lt_of_le_of_lt ih (length_skipLineComment_lt (by simp [h])))
  | case6 => simp

/-- Passing over blanks and comments fails only after consuming what it fails on. -/
theorem length_skipTrivia_lt_of_error {lexer : Lexer} {failure : ScanFailure}
    (h : lexer.skipTrivia.1 = .error failure) :
    lexer.skipTrivia.2.text.length < lexer.text.length := by
  fun_induction skipTrivia lexer with
  | case1 => simp at h
  | case2 lexer c rest ht _ ih =>
    have := ih h
    simp only at this
    simp only [ht, List.length_cons]
    omega
  | case3 lexer _ after hskip ht _ ih =>
    have := length_skipBlockComment_lt (show lexer.text ≠ [] by simp [ht])
    rw [hskip] at this
    exact Nat.lt_trans (ih h) this
  | case4 lexer _ failure after hskip ht _ =>
    have := length_skipBlockComment_lt (show lexer.text ≠ [] by simp [ht])
    rwa [hskip] at this
  | case5 lexer _ ht _ _ ih =>
    exact Nat.lt_trans (ih h) (length_skipLineComment_lt (by simp [ht]))
  | case6 => simp at h

theorem length_scanCharConst_lt {lexer : Lexer} (h : lexer.text ≠ []) :
    lexer.scanCharConst.2.text.length < lexer.text.length := by
  have hpos := List.length_pos_iff.2 h
  unfold scanCharConst
  split
  · simpa using hpos
  · next c rest heq =>
    have hlen := congrArg List.length heq
    simp only [List.length_tail, List.length_cons] at hlen ⊢
    split
    · rw [List.length_cons] at hlen
      simp only
      omega
    · simp only
      omega

theorem length_scanLiteral_lt {lexer : Lexer} (h : lexer.text ≠ []) :
    lexer.scanLiteral.2.text.length < lexer.text.length := by
  have hpos := List.length_pos_iff.2 h
  have hle := length_dropWhile_le isLiteralChar lexer.text.tail
  simp only [List.length_tail] at hle
  simp only [scanLiteral]
  split
  · next heq =>
    rw [heq, List.length_cons] at hle
    simp only
    omega
  · simp only
    omega

theorem length_dropWhile_lt {α : Type} {p : α → Bool} {a : α} {l : List α} (h : p a = true) :
    ((a :: l).dropWhile p).length < (a :: l).length := by
  rw [List.dropWhile_cons_of_pos h, List.length_cons]
  exact Nat.lt_succ_of_le (length_dropWhile_le p l)

theorem length_scanNumber_le (lexer : Lexer) :
    lexer.scanNumber.2.text.length ≤ (lexer.text.dropWhile isDigit).length := by
  unfold scanNumber
  simp only
  split
  · next rest heq =>
    have hlen := congrArg List.length heq
    rw [List.length_cons] at hlen
    split
    · simp
    · split
      · simp only
        omega
      · have := length_dropWhile_le isDigit rest
        simp only
        omega
  · split <;> simp

theorem length_scanWord_eq (lexer : Lexer) :
    lexer.scanWord.2.text.length = (lexer.text.dropWhile isWordChar).length := by
  unfold scanWord
  simp only
  split <;> rfl

/-- A lexeme, well formed or not, has at least one character. -/
theorem length_scanLexeme_lt {lexer : Lexer} {c : Char} {rest : List Char}
    (h : lexer.text = c :: rest) :
    (lexer.scanLexeme c rest).2.text.length < lexer.text.length := by
  have hne : lexer.text ≠ [] := by simp [h]
  have hrest : rest.length < lexer.text.length := by simp [h]
  unfold scanLexeme
  split
  · split
    · simp only [List.length_tail]
      omega
    · exact hrest
  · split
    · exact hrest
    · split
      · exact length_scanCharConst_lt hne
      · split
        · exact length_scanLiteral_lt hne
        · split
          · next hd =>
            refine Nat.lt_of_le_of_lt (length_scanNumber_le lexer) ?_
            rw [h]
            exact length_dropWhile_lt hd
          · split
            · next hl =>
              rw [length_scanWord_eq, h]
              exact length_dropWhile_lt (by simp [isWordChar, hl])
            · exact hrest

/-- A scan that is not at the end of the text consumes something, whether it yields a
    token or fails. -/
theorem length_scan_lt {lexer : Lexer} (h : lexer.scan.1 ≠ .ok none) :
    lexer.scan.2.text.length < lexer.text.length := by
  unfold scan at h ⊢
  split at h
  · next failure after heq =>
    have := length_skipTrivia_lt_of_error (by rw [heq])
    rw [heq] at this
    simpa using this
  · next after heq =>
    have hle := length_skipTrivia_le lexer
    rw [heq] at hle
    split at h
    · simp at h
    · next c rest hafter =>
      exact Nat.lt_of_lt_of_le (length_scanLexeme_lt hafter) hle

end MiniPascal.Lexer
