import MiniPascal.Proofs.Lexer.Pieces

/-!
# The pieces of a line

Which pieces of a text lie on one of its lines. The rows of the line are the tokens among them
(`filter_rowsOf`), and they are found by scanning the line alone, from a place on it that is
between two pieces: what the line cuts off is at most a comment (`tokens_of_rest`).
-/

namespace MiniPascal

open Lexer

variable {below : List Char} {ps : List (Piece × List Char)}

/-! ### Rows by their lines -/

theorem exists_row_of_mem {token : Token} {w : List Char} (h : (.lexeme token, w) ∈ ps) (n : Nat) :
    ∃ row ∈ rowsOf n ps, row.2 = token := by
  obtain ⟨ps₁, ps₂, rfl⟩ := List.append_of_mem h
  rw [rowsOf_append, rowsOf]
  exact ⟨_, List.mem_append_right _ List.mem_cons_self, rfl⟩

/-- The rows of pieces are on their lines. -/
theorem bounds_of_mem_rowsOf {n : Nat} {row : Nat × Token} (h : row ∈ rowsOf n ps) :
    n ≤ row.1 ∧ row.1 ≤ n + (written ps).count '\n' := by
  induction ps generalizing n with
  | nil => cases h
  | cons p ps ih =>
    obtain ⟨piece, w⟩ := p
    rw [written_cons, List.count_append]
    have hrest (h : row ∈ rowsOf (n + w.count '\n') ps) :
        n ≤ row.1 ∧ row.1 ≤ n + (w.count '\n' + (written ps).count '\n') := by
      have := ih h
      omega
    cases piece with
    | lexeme token =>
      rcases List.mem_cons.1 h with rfl | h
      · simp only
        omega
      · exact hrest h
    | _ => exact hrest h

/-- Pieces go on on another line, if they go on. -/
def BreaksLine (ps : List (Piece × List Char)) : Prop :=
  ∀ p ∈ ps.head?, '\n' ∈ p.2 ∧ p.1.token? = none

/-- Pieces end on another line than they began, or there are none. -/
def EndsLine (ps : List (Piece × List Char)) : Prop :=
  ∀ p ∈ ps.getLast?, '\n' ∈ p.2 ∧ p.1.token? = none

theorem rowsOf_cons_of_none {n : Nat} {piece : Piece} (hpiece : piece.token? = none)
    (w : List Char) : rowsOf n ((piece, w) :: ps) = rowsOf (n + w.count '\n') ps := by
  cases piece with
  | lexeme token => cases hpiece
  | _ => rfl

theorem lt_of_breaksLine (h : BreaksLine ps) {n : Nat} {row : Nat × Token}
    (hrow : row ∈ rowsOf n ps) : n < row.1 := by
  cases ps with
  | nil => cases hrow
  | cons p ps =>
    obtain ⟨hmem, hpiece⟩ := h p rfl
    rw [rowsOf_cons_of_none hpiece] at hrow
    have hle := (bounds_of_mem_rowsOf hrow).1
    have hpos := List.count_pos_iff.2 hmem
    omega

theorem lt_of_endsLine (h : EndsLine ps) {n : Nat} {row : Nat × Token}
    (hrow : row ∈ rowsOf n ps) : row.1 < n + (written ps).count '\n' := by
  rcases List.eq_nil_or_concat ps with rfl | ⟨init, ⟨piece, w⟩, rfl⟩
  · cases hrow
  · obtain ⟨hmem, hpiece⟩ := h (piece, w) (by simp)
    rw [List.concat_eq_append, rowsOf_append, rowsOf_cons_of_none hpiece] at hrow
    have hrow : row ∈ rowsOf n init := by simpa [rowsOf] using hrow
    have hle := (bounds_of_mem_rowsOf hrow).2
    have hpos : 0 < w.count '\n' := List.count_pos_iff.2 hmem
    simp only [List.concat_eq_append, written_append, List.count_append, written_cons]
    omega

/-- The rows of a line are those of the pieces that lie on it. -/
theorem filter_rowsOf {before here after : List (Piece × List Char)} (hbefore : EndsLine before)
    (hhere : '\n' ∉ written here) (hafter : BreaksLine after) :
    (rowsOf 1 (before ++ (here ++ after))).filter (·.1 = 1 + (written before).count '\n') =
      rowsOf (1 + (written before).count '\n') here := by
  rw [rowsOf_append, rowsOf_append, List.count_eq_zero.2 hhere, Nat.add_zero, List.filter_append,
    List.filter_append, List.filter_eq_nil_iff.2, List.filter_eq_self.2, List.filter_eq_nil_iff.2,
    List.nil_append, List.append_nil]
  · intro row hrow
    have := lt_of_breaksLine hafter hrow
    simp only [decide_eq_true_eq]
    omega
  · intro row hrow
    have := bounds_of_mem_rowsOf hrow
    rw [List.count_eq_zero.2 hhere] at this
    simp only [decide_eq_true_eq]
    omega
  · intro row hrow
    have := lt_of_endsLine hbefore hrow
    simp only [decide_eq_true_eq]
    omega

theorem map_snd_rowsOf (n n' : Nat) (ps : List (Piece × List Char)) :
    (rowsOf n ps).map Prod.snd = (rowsOf n' ps).map Prod.snd := by
  induction ps generalizing n n' with
  | nil => rfl
  | cons p ps ih =>
    obtain ⟨piece, w⟩ := p
    cases piece with
    | lexeme token => exact congrArg (token :: ·) (ih _ _)
    | _ => exact ih _ _

/-! ### The rest of a line -/

/-- A piece over more than one line is a comment, or a newline alone. -/
theorem IsPiece.cases_of_newline {piece : Piece} {w after : List Char} (h : IsPiece piece w after)
    (hmem : '\n' ∈ w) (hquote : piece ≠ .lexeme (.charConst '\n')) :
    (piece = .blank ∧ w = ['\n']) ∨
      piece = .block ∧ ∃ inside, '\x7d' ∉ inside ∧ w = '\x7b' :: (inside ++ ['\x7d']) := by
  cases h with
  | blank =>
    rw [← List.mem_singleton.1 hmem]
    exact .inl ⟨rfl, rfl⟩
  | @block inside _ hinside => exact .inr ⟨rfl, inside, hinside, rfl⟩
  | line hinside => simp [hinside] at hmem
  | lexeme hlexeme =>
    exact absurd hmem (hlexeme.not_mem_newline fun htoken => hquote (by rw [htoken]))

/-- What comes before the end of a piece inside it is not the whole of it. -/
theorem exists_of_block {inside u v : List Char} (hu : u ≠ []) (hv : v ≠ [])
    (h : u ++ v = '\x7b' :: (inside ++ ['\x7d'])) :
    ∃ u' v', u = '\x7b' :: u' ∧ v = v' ++ ['\x7d'] ∧ inside = u' ++ v' := by
  obtain ⟨c, u, rfl⟩ := List.exists_cons_of_ne_nil hu
  rw [List.cons_append, List.cons.injEq] at h
  obtain ⟨rfl, h⟩ := h
  rcases List.eq_nil_or_concat v with rfl | ⟨v, d, rfl⟩
  · exact absurd rfl hv
  · rw [List.concat_eq_append, ← List.append_assoc] at h
    obtain ⟨rfl, hd⟩ := List.append_inj' h rfl
    exact ⟨u, v, rfl, by rw [List.concat_eq_append, hd], rfl⟩

/-- A place inside a piece over more than one line is in the braces of a comment. -/
theorem IsPiece.block_of_newline {piece : Piece} {u v after : List Char}
    (h : IsPiece piece (u ++ v) after) (hu : u ≠ []) (hv : v ≠ []) (hmem : '\n' ∈ u ++ v)
    (hquote : piece ≠ .lexeme (.charConst '\n')) :
    piece = .block ∧
      ∃ u' v', u = '\x7b' :: u' ∧ v = v' ++ ['\x7d'] ∧ '\x7d' ∉ u' ∧ '\x7d' ∉ v' := by
  rcases h.cases_of_newline hmem hquote with ⟨-, hw⟩ | ⟨rfl, inside, hinside, hw⟩
  · have hlength := congrArg List.length hw
    have hposu := List.length_pos_iff.2 hu
    have hposv := List.length_pos_iff.2 hv
    rw [List.length_append, List.length_singleton] at hlength
    omega
  · obtain ⟨u', v', rfl, rfl, rfl⟩ := exists_of_block hu hv hw
    rw [List.mem_append, not_or] at hinside
    exact ⟨rfl, u', v', rfl, rfl, hinside.1, hinside.2⟩

theorem Pieces.eq_of_before {a b tail : List Char} (h : Pieces (a ++ b) ps (tail ++ b)) :
    a = written ps ++ tail := by
  have hwritten := h.eq_written
  rwa [← List.append_assoc, List.append_left_inj] at hwritten

/-- A line begins between two pieces, or in a block comment. -/
theorem Pieces.place_of_line {above rest : List Char} (h : Pieces (above ++ rest) ps [])
    (habove : ∀ c ∈ above.getLast?, c = '\n')
    (hquote : ∀ p ∈ ps, p.1 ≠ .lexeme (.charConst '\n')) :
    (∃ before qs, ps = before ++ qs ∧ above = written before ∧ Pieces rest qs [] ∧
      (before = [] ∨ ∃ init, before = init ++ [(.blank, ['\n'])])) ∨
    ∃ before u carried after qs,
      ps = before ++ (.block, u ++ '\n' :: (carried ++ ['\x7d'])) :: qs ∧
      above = written before ++ u ++ ['\n'] ∧ '\x7d' ∉ carried ∧
      rest = carried ++ '\x7d' :: after ∧ Pieces after qs [] := by
  obtain ⟨before, qs, rfl, hbefore, hqs⟩ |
    ⟨before, piece, u, v, after, qs, rfl, hu, hv, hbefore, rfl, hpiece, hqs⟩ :=
    h.place List.nil_suffix
  · left
    have heq : above = written before := List.append_cancel_right hbefore.eq_written
    refine ⟨before, qs, rfl, heq, hqs, ?_⟩
    rcases List.eq_nil_or_concat before with rfl | ⟨init, ⟨piece, w⟩, rfl⟩
    · exact .inl rfl
    rw [List.concat_eq_append] at heq hbefore hquote ⊢
    obtain ⟨mid, -, hlast⟩ := hbefore.of_append
    cases hlast with
    | cons hpiece _ =>
      obtain ⟨w, c, rfl⟩ : ∃ w' c, w = w' ++ [c] :=
        ⟨_, _, (List.dropLast_concat_getLast hpiece.ne_nil).symm⟩
      obtain rfl : c = '\n' := habove c (by simp [heq, written])
      have hpieceQuote : piece ≠ .lexeme (.charConst '\n') :=
        hquote (piece, w ++ ['\n']) (by simp)
      rcases hpiece.cases_of_newline (by simp) hpieceQuote with
        ⟨rfl, hw⟩ | ⟨-, inside, -, hw⟩
      · exact .inr ⟨init, by rw [hw]⟩
      · have hend := congrArg List.getLast? hw
        simp [List.getLast?_cons] at hend
  · right
    rcases List.eq_nil_or_concat u with rfl | ⟨u, c, rfl⟩
    · exact absurd rfl hu
    rw [List.concat_eq_append] at *
    have heq : above = written before ++ (u ++ [c]) := hbefore.eq_of_before
    obtain rfl : c = '\n' := habove c (by simp [heq])
    have hpieceQuote : piece ≠ .lexeme (.charConst '\n') :=
      hquote (piece, u ++ ['\n'] ++ v) (by simp)
    obtain ⟨rfl, -, carried, -, rfl, -, hcarried⟩ :=
      hpiece.block_of_newline hu hv (by simp) hpieceQuote
    exact ⟨before, u, carried, after, qs, by simp, by simp [heq], hcarried, by simp, hqs⟩

/-- Where a comment begins that is not closed, the tokens end. -/
theorem tokenization_of_unclosed {inside : List Char} (h : '\x7d' ∉ inside) (line : Nat)
    (words : Words) : (tokenization ⟨'\x7b' :: inside, line, words⟩).rows = [] ∧
      (tokenization ⟨'\x7b' :: inside, line, words⟩).abort? = none := by
  have hscan : scan ⟨'\x7b' :: inside, line, words⟩ =
      (.error (.lexical .unclosedComment), ⟨[], line + inside.count '\n', words⟩) := by
    rw [scan, skipTrivia_cons, if_neg (by decide), if_pos rfl, skipBlockComment_of_unclosed h]
  rw [tokenization_of_error hscan]
  exact ⟨rfl, rfl⟩

/-- The tokens before a place in a text are found in the part before it alone. -/
theorem tokens_of_before {a b tail : List Char} (h : Pieces (a ++ b) ps (tail ++ b)) :
    ∃ known, Sound known ∧ (ofChars a).tokenization =
      { tokenization ⟨tail, 1 + (written ps).count '\n', known⟩ with
        rows := rowsOf 1 ps ++
          (tokenization ⟨tail, 1 + (written ps).count '\n', known⟩).rows } := by
  have htrivia : (ofChars a).tokenization = tokenization ⟨a, 1, .reserved⟩ :=
    tokenization_trivia (t := [' ']) (.blank (by decide) .nil) a 1 .reserved
  rw [htrivia, h.eq_of_before]
  exact tokenization_pieces h.before 1 sound_reserved

/-- The rest of a line, from a place between two pieces on, has the tokens of the pieces on it,
    and is not aborted. -/
theorem tokens_of_rest {rest : List Char} (h : Pieces (rest ++ below) ps []) (hrest : '\n' ∉ rest)
    (hbelow : NotNext (· ≠ '\n') below) (hquote : ∀ p ∈ ps, p.1 ≠ .lexeme (.charConst '\n')) :
    ∃ here after, ps = here ++ after ∧ '\n' ∉ written here ∧ BreaksLine after ∧
      (ofChars rest).tokenization.abort? = none ∧
      (ofChars rest).tokenization.rows = rowsOf 1 here := by
  obtain ⟨here, after, rfl, hhere, hafter⟩ |
    ⟨here, piece, u, v, last, after, rfl, hu, hv, hhere, hlast, hpiece, hafter⟩ :=
    h.place List.nil_suffix
  · -- The line ends between two pieces.
    rw [← List.nil_append below] at hhere
    obtain ⟨known, -, htokens⟩ := tokens_of_before hhere
    have heq := hhere.eq_of_before
    refine ⟨here, after, rfl, ?_, ?_, ?_⟩
    · rwa [heq, List.append_nil] at hrest
    · cases hafter with
      | nil => exact nofun
      | cons hpiece hafter =>
        rintro p ⟨⟩
        obtain ⟨c, w, rfl⟩ := List.exists_cons_of_ne_nil hpiece.ne_nil
        obtain rfl : c = '\n' := by simpa using hbelow c rfl
        refine ⟨List.mem_cons_self, ?_⟩
        rcases hpiece.cases_of_newline List.mem_cons_self (hquote _
          (List.mem_append_right _ List.mem_cons_self)) with
          ⟨rfl, -⟩ | ⟨rfl, -⟩ <;> rfl
    · rw [htokens, tokenization_of_end (scan_ending .nil _ known)]
      exact ⟨rfl, List.append_nil _⟩
  · -- The line ends in a block comment.
    obtain ⟨known, -, htokens⟩ := tokens_of_before hhere
    have heq := hhere.eq_of_before
    obtain ⟨c, v, rfl⟩ := List.exists_cons_of_ne_nil hv
    obtain rfl : c = '\n' := by
      rw [hlast] at hbelow
      simpa using hbelow c rfl
    have hnewline : '\n' ∈ u ++ '\n' :: v := by simp
    obtain ⟨rfl, u, v', rfl, -, hopen, -⟩ := hpiece.block_of_newline hu hv hnewline
      (hquote _ (List.mem_append_right _ List.mem_cons_self))
    obtain ⟨hrows, habort⟩ :=
      tokenization_of_unclosed hopen (1 + (written here).count '\n') known
    refine ⟨here, _, rfl, fun hmem => hrest (heq ▸ List.mem_append_left _ hmem), ?_, ?_, ?_⟩
    · rintro p ⟨⟩
      exact ⟨hnewline, rfl⟩
    · rw [htokens]
      exact habort
    · rw [htokens]
      simp only [hrows, List.append_nil]

end MiniPascal
