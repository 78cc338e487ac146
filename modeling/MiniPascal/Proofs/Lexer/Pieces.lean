import MiniPascal.Proofs.Concatenation

/-!
# The pieces of a text

What each part of a text is to its lexer: a blank, a comment or the lexeme of a token (`Piece`).
The `pieces` of a text are what its lexer consumes one after the other; a line comment ends
before its newline, which is a blank. A text with tokens up to its end consists of its pieces
(`pieces_spec`), and its rows are the tokens among them.

What a piece is depends on nothing before it, and of what follows on nothing but whether it goes
on. So the pieces of a text that lie on one line, or before any other place, are the pieces of
that part alone (`Pieces.before`).
-/

namespace MiniPascal

open Lexer

/-- What a part of a text is to its lexer. -/
inductive Piece
  | blank
  | block
  | line
  | lexeme (token : Token)
  deriving DecidableEq

/-- The token of a lexeme. -/
def Piece.token? : Piece → Option Token
  | lexeme token => some token
  | _ => none

/-- What a text begins with, and what follows that; none at the end of the text and before what
    is no piece. -/
def nextPiece? : List Char → Option (Piece × List Char)
  | [] => none
  | c :: rest =>
    if isBlank c then some (.blank, rest)
    else if c = '\x7b' then
      match skipBlockComment ⟨c :: rest, 1, .reserved⟩ with
      | (.ok (), after) => some (.block, after.text)
      | (.error _, _) => none
    else if c = '%' then some (.line, rest.dropWhile (· ≠ '\n'))
    else
      match scan ⟨c :: rest, 1, .reserved⟩ with
      | (.ok (some token), after) => some (.lexeme token, after.text)
      | _ => none

theorem length_nextPiece?_lt {text rest : List Char} {piece : Piece}
    (h : nextPiece? text = some (piece, rest)) : rest.length < text.length := by
  cases text with
  | nil => cases h
  | cons c text =>
    rw [nextPiece?] at h
    split at h
    · cases h
      exact Nat.lt_succ_self _
    split at h
    · split at h
      · next after heq =>
        cases h
        have hne : (Lexer.mk (c :: text) 1 .reserved).text ≠ [] := List.cons_ne_nil c text
        have hlt := length_skipBlockComment_lt hne
        rwa [heq] at hlt
      · cases h
    split at h
    · cases h
      exact Nat.lt_succ_of_le (length_dropWhile_le _ text)
    · split at h
      · next token after heq =>
        cases h
        have hne : (scan ⟨c :: text, 1, .reserved⟩).1 ≠ .ok none := by
          rw [heq]
          simp
        have hlt := length_scan_lt hne
        rwa [heq] at hlt
      · cases h

/-- The pieces of a text, each with its characters. -/
def pieces (text : List Char) : List (Piece × List Char) :=
  match _h : nextPiece? text with
  | none => []
  | some (piece, rest) => (piece, text.take (text.length - rest.length)) :: pieces rest
termination_by text.length
decreasing_by exact length_nextPiece?_lt _h

/-- The characters of pieces. -/
def written (ps : List (Piece × List Char)) : List Char :=
  ps.flatMap Prod.snd

/-- What each character of pieces belongs to. -/
def labels (ps : List (Piece × List Char)) : List Piece :=
  ps.flatMap fun (piece, w) => List.replicate w.length piece

/-- The tokens among pieces that begin on a line, each with the line that its lexeme ends on. -/
def rowsOf : Nat → List (Piece × List Char) → List (Nat × Token)
  | _, [] => []
  | line, (.lexeme token, w) :: ps =>
    (line + w.count '\n', token) :: rowsOf (line + w.count '\n') ps
  | line, (_, w) :: ps => rowsOf (line + w.count '\n') ps

@[simp] theorem written_cons (piece : Piece) (w : List Char) (ps : List (Piece × List Char)) :
    written ((piece, w) :: ps) = w ++ written ps := rfl

@[simp] theorem written_append (ps ps' : List (Piece × List Char)) :
    written (ps ++ ps') = written ps ++ written ps' :=
  List.flatMap_append

@[simp] theorem labels_cons (piece : Piece) (w : List Char) (ps : List (Piece × List Char)) :
    labels ((piece, w) :: ps) = List.replicate w.length piece ++ labels ps := rfl

@[simp] theorem labels_append (ps ps' : List (Piece × List Char)) :
    labels (ps ++ ps') = labels ps ++ labels ps' :=
  List.flatMap_append

@[simp] theorem length_labels (ps : List (Piece × List Char)) :
    (labels ps).length = (written ps).length := by
  induction ps with
  | nil => rfl
  | cons p ps ih =>
    obtain ⟨piece, w⟩ := p
    rw [labels_cons, written_cons, List.length_append, List.length_append, List.length_replicate,
      ih]

theorem getElem?_labels (before : List (Piece × List Char)) (piece : Piece) (u : List Char)
    (c : Char) (v : List Char) (ps : List (Piece × List Char)) :
    (labels (before ++ (piece, u ++ c :: v) :: ps))[(written before ++ u).length]? =
      some piece := by
  have hu : (written before ++ u).length - (labels before).length = u.length := by simp
  rw [labels_append, labels_cons, List.getElem?_append_right (by simp), hu,
    List.getElem?_append_left (by simp), List.getElem?_replicate_of_lt (by simp)]

theorem rowsOf_append (line : Nat) (ps ps' : List (Piece × List Char)) :
    rowsOf line (ps ++ ps') = rowsOf line ps ++ rowsOf (line + (written ps).count '\n') ps' := by
  induction ps generalizing line with
  | nil => rfl
  | cons p ps ih =>
    obtain ⟨piece, w⟩ := p
    rw [written_cons, List.count_append, ← Nat.add_assoc]
    cases piece with
    | lexeme token => exact congrArg (_ :: ·) (ih _)
    | _ => exact ih _

/-! ### The grammar of pieces -/

/-- The characters `w`, followed by `after`, are a piece. -/
inductive IsPiece : Piece → List Char → List Char → Prop
  | blank {c : Char} (after : List Char) : c ∈ blanks → IsPiece .blank [c] after
  | block {inside : List Char} (after : List Char) : '\x7d' ∉ inside →
    IsPiece .block ('\x7b' :: (inside ++ ['\x7d'])) after
  | line {inside after : List Char} : '\n' ∉ inside → NotNext (· ≠ '\n') after →
    IsPiece .line ('%' :: inside) after
  | lexeme {w after : List Char} {token : Token} : Lexeme w token after →
    (∀ n : Nat, token = .num n → n < numeralBound) → IsPiece (.lexeme token) w after

/-- A text consists of pieces and a rest. -/
inductive Pieces : List Char → List (Piece × List Char) → List Char → Prop
  | nil (rest : List Char) : Pieces rest [] rest
  | cons {piece : Piece} {w text rest : List Char} {ps : List (Piece × List Char)} :
    IsPiece piece w text → Pieces text ps rest → Pieces (w ++ text) ((piece, w) :: ps) rest

variable {piece : Piece} {w text rest : List Char} {ps ps' : List (Piece × List Char)}

theorem IsPiece.ne_nil (h : IsPiece piece w rest) : w ≠ [] := by
  cases h with
  | lexeme hlexeme => exact hlexeme.ne_nil
  | _ => simp

theorem Pieces.eq_written (h : Pieces text ps rest) : text = written ps ++ rest := by
  induction h with
  | nil => rfl
  | cons _ _ ih => rw [written_cons, List.append_assoc, ← ih]

theorem Pieces.append {mid : List Char} (h : Pieces text ps mid) (h' : Pieces mid ps' rest) :
    Pieces text (ps ++ ps') rest := by
  induction h with
  | nil => exact h'
  | cons hpiece _ ih => exact .cons hpiece (ih h')

theorem Pieces.of_append (h : Pieces text (ps ++ ps') rest) :
    ∃ mid, Pieces text ps mid ∧ Pieces mid ps' rest := by
  induction ps generalizing text with
  | nil => exact ⟨text, .nil text, h⟩
  | cons p ps ih =>
    cases h with
    | cons hpiece hrest =>
      obtain ⟨mid, hps, hps'⟩ := ih hrest
      exact ⟨mid, .cons hpiece hps, hps'⟩

/-! ### Parts of a text -/

/-- A character of two texts put together is one of the first or of the second. -/
theorem exists_of_append_eq {a b left right : List Char} {c : Char}
    (h : a ++ b = left ++ c :: right) :
    (∃ mid, a = left ++ c :: mid) ∨ ∃ mid, left = a ++ mid ∧ b = mid ++ c :: right := by
  obtain ⟨mid, rfl, hmid⟩ | ⟨mid, rfl, hmid⟩ := List.append_eq_append_iff.1 h
  · exact .inr ⟨mid, rfl, hmid⟩
  · cases mid with
    | nil => exact .inr ⟨[], by simp, hmid.symm⟩
    | cons d mid =>
      obtain ⟨rfl, -⟩ := List.cons.inj hmid
      exact .inl ⟨mid, rfl⟩

theorem NotNext.of_append {p : Char → Bool} {a b : List Char} (h : NotNext p (a ++ b)) :
    NotNext p a := by
  cases a with
  | nil => exact notNext_nil p
  | cons c a => exact notNext_cons c a (h c rfl)

/-- A piece stays one if less follows it. -/
theorem IsPiece.before {a b : List Char} (h : IsPiece piece w (a ++ b)) : IsPiece piece w a := by
  cases h with
  | blank _ hc => exact .blank a hc
  | block _ hinside => exact .block a hinside
  | line hinside hrest => exact .line hinside hrest.of_append
  | lexeme hlexeme hshown => exact .lexeme (hlexeme.before fun _ _ hnext => hnext.of_append) hshown

/-- Pieces stay what they are if less of the text follows them. -/
theorem Pieces.before {a b : List Char} (h : Pieces text ps (a ++ b)) :
    Pieces (written ps ++ a) ps a := by
  generalize hrest : a ++ b = rest at h
  induction h with
  | nil => exact .nil a
  | @cons piece w text rest ps hpiece hps ih =>
    subst hrest
    rw [written_cons, List.append_assoc]
    refine .cons ?_ (ih rfl)
    rw [hps.eq_written, ← List.append_assoc] at hpiece
    exact hpiece.before

/-- Any place in a text is between two of its pieces, or inside one. -/
theorem Pieces.place {a b : List Char} (h : Pieces (a ++ b) ps rest) (hrest : rest <:+ b) :
    (∃ ps₁ ps₂, ps = ps₁ ++ ps₂ ∧ Pieces (a ++ b) ps₁ b ∧ Pieces b ps₂ rest) ∨
    ∃ ps₁ piece u v after ps₂, ps = ps₁ ++ (piece, u ++ v) :: ps₂ ∧ u ≠ [] ∧ v ≠ [] ∧
      Pieces (a ++ b) ps₁ (u ++ b) ∧ b = v ++ after ∧ IsPiece piece (u ++ v) after ∧
      Pieces after ps₂ rest := by
  generalize htext : a ++ b = text at h
  induction h generalizing a with
  | nil rest =>
    obtain ⟨c, rfl⟩ := hrest
    have hnil : a ++ c = [] := List.append_left_eq_self.1 (by rw [List.append_assoc, htext])
    obtain ⟨rfl, rfl⟩ := List.append_eq_nil_iff.1 hnil
    exact .inl ⟨[], [], rfl, .nil _, .nil _⟩
  | @cons piece w text rest ps hpiece hps ih =>
    obtain ⟨a', rfl, rfl⟩ | ⟨v, rfl, rfl⟩ := List.append_eq_append_iff.1 htext
    · -- The place is inside the first piece, or before it.
      by_cases hnil : a = []
      · subst hnil
        exact .inl ⟨[], _, rfl, .nil _, .cons hpiece hps⟩
      by_cases hend : a' = []
      · subst hend
        rw [List.nil_append, List.append_nil]
        rw [List.append_nil] at hpiece
        exact .inl ⟨[_], ps, rfl, .cons hpiece (.nil _), hps⟩
      exact .inr ⟨[], piece, a, a', text, ps, rfl, hnil, hend,
        by rw [List.append_assoc]; exact .nil _, rfl, hpiece, hps⟩
    · obtain ⟨ps₁, ps₂, rfl, h₁, h₂⟩ |
        ⟨ps₁, piece', u, v', after, ps₂, rfl, hu, hv, h₁, rfl, h, h₂⟩ := ih hrest rfl
      · exact .inl ⟨_ :: ps₁, ps₂, rfl, .cons hpiece h₁, h₂⟩
      · exact .inr ⟨_ :: ps₁, piece', u, v', after, ps₂, rfl, hu, hv, .cons hpiece h₁, rfl, h, h₂⟩

/-! ### The pieces that are found -/

theorem Lexeme.exists_cons {token : Token} (h : Lexeme w token rest) :
    ∃ c tail, w = c :: tail ∧ beginsTrivia c = false := by
  have hkinds : ∀ kind ∈ Kind.pairs ++ Kind.singles ++ Kind.halves,
      kind.text.toList.head?.any (!beginsTrivia ·) = true := by
    decide
  have hkind {kind : Kind} (h : kind ∈ Kind.pairs ++ Kind.singles ++ Kind.halves) :
      ∃ c tail, kind.text.toList = c :: tail ∧ beginsTrivia c = false := by
    obtain ⟨c, hc, htrivia⟩ := (Option.any_eq_true _ _).1 (hkinds kind h)
    obtain ⟨tail, htext⟩ := List.head?_eq_some_iff.1 hc
    exact ⟨c, tail, htext, by simpa using htrivia⟩
  have hdigits {w : List Char} (hw : IsDigits w) :
      ∃ c tail, w = c :: tail ∧ beginsTrivia c = false := by
    obtain ⟨c, tail, rfl⟩ := List.exists_cons_of_ne_nil hw.1
    exact ⟨c, tail, rfl, beginsTrivia_eq_false (not_mem_marks_of_isDigit (hw.2 c (by simp)))⟩
  cases h with
  | reserved hw | name hw =>
    obtain ⟨c, hc, hletter⟩ := hw.1
    obtain ⟨tail, rfl⟩ := List.head?_eq_some_iff.1 hc
    exact ⟨c, tail, rfl, beginsTrivia_eq_false (not_mem_marks_of_isLetter hletter)⟩
  | num hw => exact hdigits hw
  | real hwhole =>
    obtain ⟨c, tail, rfl, htrivia⟩ := hdigits hwhole
    exact ⟨c, _, rfl, htrivia⟩
  | charConst | literal => exact ⟨_, _, rfl, by decide⟩
  | pair _ h => exact hkind (by simp [h])
  | single _ h => exact hkind (by simp [h])
  | half h => exact hkind (by simp [h])
  | @lone c _ hc =>
    have hlone : ['&', '|'].any beginsTrivia = false := by decide
    exact ⟨c, [], rfl, by simpa using List.any_eq_false.1 hlone c hc⟩
  | @symbol c _ hmark => exact ⟨c, [], rfl, beginsTrivia_eq_false hmark⟩

theorem Lexeme.ne_newline {c : Char} {token : Token} (h : Lexeme (c :: w) token rest) :
    c ≠ '\n' := by
  rintro rfl
  obtain ⟨d, tail, heq, htrivia⟩ := h.exists_cons
  obtain ⟨rfl, -⟩ := List.cons.inj heq
  cases htrivia

/-- A piece at the beginning of a text is found there. -/
theorem IsPiece.nextPiece?_eq (h : IsPiece piece w rest) :
    nextPiece? (w ++ rest) = some (piece, rest) := by
  cases h with
  | blank _ hc => rw [List.singleton_append, nextPiece?, if_pos (isBlank_iff.2 hc)]
  | block _ hinside =>
    rw [List.cons_append, List.append_assoc, List.singleton_append, nextPiece?,
      if_neg (by decide), if_pos rfl, skipBlockComment_of_closed hinside]
  | @line inside _ hinside hrest =>
    have hrun := run_append (p := (· ≠ '\n')) (run_of_not_mem hinside) hrest
    rw [List.cons_append, nextPiece?, if_neg (by decide), if_neg (by decide), if_pos rfl, hrun.2]
  | lexeme hlexeme hshown =>
    obtain ⟨after, -, hscan⟩ := scan_lexeme hlexeme hshown sound_reserved 1
    obtain ⟨c, tail, rfl, htrivia⟩ := hlexeme.exists_cons
    simp only [beginsTrivia, Bool.or_eq_false_iff, decide_eq_false_iff_not] at htrivia
    obtain ⟨⟨hblank, hbrace⟩, hpercent⟩ := htrivia
    rw [List.cons_append] at hscan ⊢
    rw [nextPiece?, if_neg (by simp [hblank]), if_neg hbrace, if_neg hpercent, hscan]

theorem pieces_of_some (h : nextPiece? (w ++ rest) = some (piece, rest)) :
    pieces (w ++ rest) = (piece, w) :: pieces rest := by
  rw [pieces]
  split
  · next heq => rw [h] at heq; cases heq
  · next heq =>
    rw [h] at heq
    cases heq
    rw [List.length_append, Nat.add_sub_cancel, List.take_left]

/-- A text that consists of pieces has no others. -/
theorem Pieces.pieces_eq (h : Pieces text ps []) : pieces text = ps := by
  generalize hrest : [] = rest at h
  induction h with
  | nil =>
    rw [← hrest, pieces]
    rfl
  | cons hpiece _ ih => rw [pieces_of_some hpiece.nextPiece?_eq, ih hrest]

/-! ### Tokens -/

/-- A line comment is passed over, whether or not a newline ends it. -/
theorem tokenization_lineComment {inside : List Char} (hinside : '\n' ∉ inside)
    (hrest : NotNext (· ≠ '\n') rest) (line : Nat) (words : Words) :
    tokenization ⟨'%' :: (inside ++ rest), line, words⟩ = tokenization ⟨rest, line, words⟩ := by
  cases rest with
  | nil =>
    rw [List.append_nil, tokenization_congr]
    rw [scan_ending (.line hinside), scan_ending .nil]
  | cons c rest =>
    obtain rfl : c = '\n' := by simpa using hrest c rfl
    have hcomment := tokenization_trivia (.line hinside .nil) rest line words
    have hnewline := tokenization_trivia (t := ['\n']) (.blank (by decide) .nil) rest line words
    rw [List.cons_append, List.append_assoc, List.singleton_append] at hcomment
    have hcount : ('%' :: (inside ++ ['\n'])).count '\n' = ['\n'].count '\n' := by
      simp [List.count_eq_zero.2 hinside]
    rw [hcomment, hcount, ← hnewline, List.singleton_append]

/-- A lexer finds the tokens among the pieces of a text, and goes on with the rest. -/
theorem tokenization_pieces (h : Pieces text ps rest) (line : Nat) {words : Words}
    (hwords : Sound words) : ∃ after, Sound after ∧ tokenization ⟨text, line, words⟩ =
      { tokenization ⟨rest, line + (written ps).count '\n', after⟩ with
        rows := rowsOf line ps ++
          (tokenization ⟨rest, line + (written ps).count '\n', after⟩).rows } := by
  induction h generalizing line words with
  | nil => exact ⟨words, hwords, rfl⟩
  | @cons piece w text rest ps hpiece _ ih =>
    rw [written_cons, List.count_append, ← Nat.add_assoc]
    cases hpiece with
    | blank _ hc =>
      rw [tokenization_trivia (.blank hc .nil)]
      exact ih _ hwords
    | block _ hinside =>
      rw [tokenization_trivia (.block hinside .nil)]
      exact ih _ hwords
    | line hinside hrest =>
      rw [List.cons_append, tokenization_lineComment hinside hrest,
        List.count_cons_of_ne (by decide),
        List.count_eq_zero.2 hinside]
      obtain ⟨after, hafter, htokens⟩ := ih line hwords
      refine ⟨after, hafter, ?_⟩
      rw [htokens, rowsOf, List.count_cons_of_ne (by decide), List.count_eq_zero.2 hinside]
      · rfl
      · simp
    | lexeme hlexeme hshown =>
      obtain ⟨known, hknown, hfirst⟩ := tokenization_lexeme .nil hlexeme hshown hwords line
      rw [List.nil_append, List.nil_append] at hfirst
      obtain ⟨after, hafter, htokens⟩ := ih (line + w.count '\n') hknown
      refine ⟨after, hafter, ?_⟩
      rw [hfirst, htokens]
      rfl

/-! ### The pieces of a split -/

theorem Trivia.exists_pieces {t : List Char} (h : Trivia t) (rest : List Char) :
    ∃ ps, Pieces (t ++ rest) ps rest := by
  induction h with
  | nil => exact ⟨[], .nil rest⟩
  | @blank c t hc _ ih =>
    obtain ⟨ps, hps⟩ := ih
    exact ⟨(.blank, [c]) :: ps, .cons (.blank (t ++ rest) hc) hps⟩
  | @block inside t hinside _ ih =>
    obtain ⟨ps, hps⟩ := ih
    refine ⟨(.block, '\x7b' :: (inside ++ ['\x7d'])) :: ps, ?_⟩
    simpa using Pieces.cons (.block (t ++ rest) hinside) hps
  | @line inside t hinside _ ih =>
    obtain ⟨ps, hps⟩ := ih
    have hnewline : Pieces ('\n' :: (t ++ rest)) ((.blank, ['\n']) :: ps) rest :=
      .cons (.blank (t ++ rest) (by decide)) hps
    refine ⟨(.line, '%' :: inside) :: (.blank, ['\n']) :: ps, ?_⟩
    simpa using Pieces.cons (.line hinside (notNext_cons '\n' _ (by decide))) hnewline

theorem Split.exists_pieces {line line' : Nat} {rows : List (Nat × Token)}
    (h : Split line text rows line' rest) (hshown : Shown rows) : ∃ ps, Pieces text ps rest := by
  induction h with
  | trivia ht => exact ht.exists_pieces _
  | lexeme ht hlexeme _ ih =>
    obtain ⟨hfirst, hothers⟩ := List.forall_mem_cons.1 hshown
    obtain ⟨ps, hps⟩ := ih hothers
    obtain ⟨blanks, hblanks⟩ := ht.exists_pieces _
    exact ⟨_, hblanks.append (.cons (.lexeme hlexeme hfirst) hps)⟩

/-- A text with tokens up to its end consists of its pieces, and its rows are the tokens among
    them. -/
theorem pieces_spec {text : String} (h : (tokenize text).failure = none) :
    Pieces text.toList (pieces text.toList) [] ∧
      (tokenize text).rows = rowsOf 1 (pieces text.toList) := by
  obtain ⟨hsize, line, rest, hsplit, hrest⟩ := exists_split_of_unfailed h
  have hpieces : ∃ ps, Pieces text.toList ps [] := by
    obtain ⟨ps, hps⟩ := hsplit.exists_pieces (shown_of_split hsplit hsize)
    cases hrest with
    | nil => exact ⟨ps, hps⟩
    | @line inside hinside =>
      have hlast : Pieces ('%' :: inside ++ []) [(.line, '%' :: inside)] [] :=
        .cons (.line hinside (notNext_nil _)) (.nil [])
      rw [List.append_nil] at hlast
      exact ⟨_, hps.append hlast⟩
  obtain ⟨ps, hps⟩ := hpieces
  rw [hps.pieces_eq]
  refine ⟨hps, ?_⟩
  obtain ⟨after, -, htokens⟩ := tokenization_pieces hps 1 sound_reserved
  rw [tokenize_eq, htokens, tokenization_of_end (scan_ending .nil _ after)]
  exact List.append_nil _

end MiniPascal
