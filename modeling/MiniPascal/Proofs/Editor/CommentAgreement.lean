import MiniPascal.Proofs.Editor.ShownPieces
import MiniPascal.Proofs.Lexer.LinePieces

/-!
# Where editor and lexer agree on comments

Editor and lexer agree on the comments of a text (`CommentsAgree`) if and only if the editor
reads its pieces as the lexer does. They need not: to the editor a brace in a literal opens a
comment, and a percent sign in braces makes one of what follows them (`comments_agree_iff`).
-/

namespace MiniPascal.Editor

open CommentState Lexer

/-! ### Agreement -/

/-- Editor and lexer agree on the comments of a text: the editor shows a character as part of a
    comment if that is what the lexer passes over there, and leaves a line with a comment open if
    the lexer is in a block comment at its end. -/
structure CommentsAgree (text : List Char) (lines : List StyledLine) : Prop where
  shown : ∀ above left c right below, IsLine text above (left ++ c :: right) below →
    ∃ styled ∈ lines[above.count '\n']?, (styled.styleAt left.length = some commentStyle ↔
      ∃ piece ∈ (labels (pieces text))[(above ++ left).length]?, isComment piece = true)
  leftOpen : ∀ above line below, IsLine text above line below →
    ∃ styled ∈ lines[above.count '\n']?, (styled.inComment = true ↔
      (labels (pieces text))[(above ++ line).length]? = some .block)

/-- At the end of a line a comment is a block comment. -/
theorem label_eq_block_iff {text before after : List Char} {ps : List (Piece × List Char)}
    (h : Pieces text ps []) (heq : text = before ++ '\n' :: after) (b : Bool) :
    ((labels ps)[before.length]? = some .block ↔ b = true) ↔
      (labels ps)[before.length]?.map isComment = some b := by
  have hline := label_ne_line h heq
  have hlt : before.length < (labels ps).length := by
    rw [length_labels, ← List.append_nil (written ps), ← h.eq_written, heq, List.length_append]
    simp
  rw [List.getElem?_eq_getElem hlt] at hline ⊢
  cases hpiece : (labels ps)[before.length] with
  | line => exact absurd (congrArg some hpiece) hline
  | block | blank | lexeme => cases b <;> simp [isComment]

theorem eq_written_of_pieces {text : List Char} {ps : List (Piece × List Char)}
    (h : Pieces text ps []) : text = written ps := by
  rw [← List.append_nil (written ps), ← h.eq_written]

variable {text : String} {lines : List StyledLine} {above left line right below : List Char}

/-- What is shown of a character agrees with its piece if it is flagged as what that is. -/
theorem shown_iff_flag {c : Char} (hpieces : Pieces text.toList (pieces text.toList) [])
    (hlines : highlight text = .ok lines)
    (hline : IsLine text.toList above (left ++ c :: right) below) :
    (∃ styled ∈ lines[above.count '\n']?, (styled.styleAt left.length = some commentStyle ↔
      ∃ piece ∈ (labels (pieces text.toList))[(above ++ left).length]?, isComment piece = true)) ↔
    (labels (pieces text.toList))[(above ++ left).length]?.map isComment =
      some (flag ((ofLine false).after (above ++ left)) c) := by
  obtain ⟨styled, hat, -, hshown⟩ := shown_comments hlines hline
  have hnewline : c ≠ '\n' := fun hc => hline.line (by simp [hc])
  have hlt : (above ++ left).length < (labels (pieces text.toList)).length := by
    have hlength := congrArg List.length hline.eq
    rw [eq_written_of_pieces hpieces] at hlength
    simp only [length_labels, hlength, List.length_append, List.length_cons]
    omega
  rw [hat, List.getElem?_eq_getElem hlt, flag, if_neg hnewline]
  simp only [Option.mem_some_iff, exists_eq_left', hshown left c right rfl, Option.map_some,
    Option.some.injEq]
  exact ⟨fun h => (Bool.eq_iff_iff.2 h).symm, fun h => by rw [h]⟩

/-- Whether a line is left open agrees with the piece at its end if the braces before it do. -/
theorem leftOpen_iff_inside (hlines : highlight text = .ok lines)
    (hline : IsLine text.toList above line below) :
    (∃ styled ∈ lines[above.count '\n']?, (styled.inComment = true ↔
      (labels (pieces text.toList))[(above ++ line).length]? = some .block)) ↔
    ((labels (pieces text.toList))[(above ++ line).length]? = some .block ↔
      ((ofLine false).after (above ++ line)).inside = true) := by
  obtain ⟨styled, hat, hopen, -⟩ := shown_comments hlines hline
  rw [← hopen, hat]
  simp [iff_comm]

/-- They agree if and only if the pieces of the text are shown as what they are. -/
theorem commentsAgree_iff (hpieces : Pieces text.toList (pieces text.toList) [])
    (hlines : highlight text = .ok lines) :
    CommentsAgree text.toList lines ↔ ShowsPieces (ofLine false) (pieces text.toList) := by
  have htext := eq_written_of_pieces hpieces
  have hlast : (labels (pieces text.toList))[text.toList.length]? = none := by
    rw [List.getElem?_eq_none_iff, length_labels, ← htext]
  rw [showsPieces_iff_forall, ← htext]
  constructor
  · rintro ⟨hshown, hleft⟩
    refine ⟨fun before c after heq => ?_, ?_⟩
    · obtain ⟨above, left, right, below, hline, rfl, hafter⟩ := exists_isLine before (c :: after)
      rw [← heq] at hline
      cases right with
      | nil =>
        -- What is told of a newline is told of the end of its line.
        obtain rfl : below = c :: after := hafter.symm
        obtain rfl : c = '\n' := by simpa using hline.below c rfl
        rw [List.append_nil] at hline
        have hopen := (leftOpen_iff_inside hlines hline).1 (hleft _ _ _ hline)
        exact (label_eq_block_iff hpieces heq _).1 hopen
      | cons d right =>
        obtain ⟨rfl, -⟩ := List.cons.inj hafter
        exact (shown_iff_flag hpieces hlines hline).1 (hshown _ _ _ _ _ hline)
    · -- At the end of the text there is no piece.
      obtain ⟨above, left, right, below, hline, heq, hnil⟩ := exists_isLine text.toList []
      obtain ⟨rfl, rfl⟩ := List.append_eq_nil_iff.1 hnil.symm
      rw [List.append_nil, List.append_nil] at hline
      have hopen := (leftOpen_iff_inside hlines hline).1 (hleft _ _ _ hline)
      rw [← heq, hlast] at hopen
      simpa using hopen
  · rintro ⟨hflags, hopen⟩
    refine ⟨fun above left c right below hline => (shown_iff_flag hpieces hlines hline).2 ?_,
      fun above line below hline => (leftOpen_iff_inside hlines hline).2 ?_⟩
    · exact hflags _ c (right ++ below) (by simpa using hline.eq)
    · have heq := hline.eq
      rw [← List.append_assoc] at heq
      cases below with
      | nil =>
        rw [List.append_nil] at heq
        rw [← heq, hlast, hopen]
        simp
      | cons c below =>
        obtain rfl : c = '\n' := by simpa using hline.below c rfl
        exact (label_eq_block_iff hpieces heq _).2 (hflags _ _ _ heq)

/-! ### The tokens of a line -/

variable {ps before qs : List (Piece × List Char)}

/-- A line is painted with tokens between coats of comments, those below them covering what
    comes before the tokens. -/
def PaintedWith (inside : Bool) (line : List Char) (tokens : List Token) : Prop :=
  ∃ under start rows onTop isOpen,
    linePaint inside line = .ok (under ++ tokenPaints line start rows ++ onTop, isOpen) ∧
    (∀ paint ∈ under ++ onTop, paint.style = commentStyle) ∧ (∀ i < start, Covered under i) ∧
    rows.map Prod.snd = tokens

/-- The rest of a line is painted with the tokens of the pieces on it. -/
theorem paintedWith_rest {inside : Bool} {start rest : List Char} {under : List Paint}
    (hpaint : linePaint inside (start ++ rest) = (restPaint (start ++ rest) start.length).map
      fun (paints, isOpen) => (under ++ paints, isOpen))
    (hunder : ∀ paint ∈ under, paint.style = commentStyle)
    (hcovered : ∀ i < start.length, Covered under i) (hends : EndsLine before)
    (h : Pieces (rest ++ below) qs []) (hrest : '\n' ∉ rest) (hbelow : NotNext (· ≠ '\n') below)
    (hquote : ∀ p ∈ qs, p.1 ≠ .lexeme (.charConst '\n')) :
    PaintedWith inside (start ++ rest)
      (((rowsOf 1 (before ++ qs)).filter
        (·.1 = 1 + (written before).count '\n')).map Prod.snd) := by
  obtain ⟨here, after, rfl, hhere, hafter, habort, hrows⟩ := tokens_of_rest h hrest hbelow hquote
  have hok : restPaint (start ++ rest) start.length =
      .ok (tokenPaints (start ++ rest) start.length (rowsOf 1 here) ++
        lineCommentPaint start.length rest ++ (blockCommentPaint start.length none rest).1,
          (blockCommentPaint start.length none rest).2) := by
    rw [restPaint_eq_ok_iff, List.drop_left, hrows]
    exact ⟨habort, rfl⟩
  rw [filter_rowsOf hends hhere hafter]
  refine ⟨under, start.length, rowsOf 1 here,
    lineCommentPaint start.length rest ++ (blockCommentPaint start.length none rest).1,
    (blockCommentPaint start.length none rest).2, ?_, ?_, hcovered, map_snd_rowsOf _ _ here⟩
  · rw [hpaint, hok]
    simp only [Except.map, List.append_assoc]
  · intro paint hmem
    rcases List.mem_append.1 hmem with hmem | hmem
    · exact hunder paint hmem
    rcases List.mem_append.1 hmem with hmem | hmem
    · exact (start_le_of_mem_lineCommentPaint hmem).2
    · exact style_of_mem_blockCommentPaint hmem

/-- A line that is part of a comment is painted with no tokens. -/
theorem paintedWith_open (h : '\x7d' ∉ line) : PaintedWith true line [] :=
  ⟨[⟨0, line.length, commentStyle⟩], 0, [], [], true, linePaint_of_open h,
    by simp, fun _ hi => absurd hi (Nat.not_lt_zero _), rfl⟩

theorem endsLine_nil : EndsLine [] := by
  simp [EndsLine]

theorem endsLine_append_singleton {piece : Piece} {w : List Char} (hmem : '\n' ∈ w)
    (hpiece : piece.token? = none) (ps : List (Piece × List Char)) :
    EndsLine (ps ++ [(piece, w)]) := by
  intro p hp
  rw [List.getLast?_concat] at hp
  cases hp
  exact ⟨hmem, hpiece⟩

/-- There are no tokens on a line that is part of a comment. -/
theorem filter_rowsOf_open {u w : List Char} (hw : '\n' ∈ w) :
    (rowsOf 1 (before ++ (.block, u ++ '\n' :: w) :: qs)).filter
      (·.1 = 1 + (written before ++ u ++ ['\n']).count '\n') = [] := by
  rw [List.filter_eq_nil_iff]
  intro row hrow
  have hpos : 0 < w.count '\n' := List.count_pos_iff.2 hw
  rw [rowsOf_append, rowsOf_cons_of_none rfl] at hrow
  simp only [decide_eq_true_eq, List.count_append, List.count_cons_self, List.count_nil] at hrow ⊢
  rcases List.mem_append.1 hrow with hrow | hrow
  · have := (bounds_of_mem_rowsOf hrow).2
    omega
  · have := (bounds_of_mem_rowsOf hrow).1
    omega

/-- A line that begins between two pieces is painted with the tokens on it. -/
theorem paintedWith_between (hends : EndsLine before) (h : Pieces (line ++ below) qs [])
    (hline : '\n' ∉ line) (hbelow : NotNext (· ≠ '\n') below)
    (hquote : ∀ p ∈ qs, p.1 ≠ .lexeme (.charConst '\n')) :
    PaintedWith false line (((rowsOf 1 (before ++ qs)).filter
      (·.1 = 1 + (written before).count '\n')).map Prod.snd) := by
  have hpaint : linePaint false ([] ++ line) =
      (restPaint ([] ++ line) ([] : List Char).length).map
        fun (paints, isOpen) => ([] ++ paints, isOpen) := by
    rw [linePaint, if_neg Bool.false_ne_true]
    cases restPaint ([] ++ line) ([] : List Char).length <;> rfl
  exact paintedWith_rest hpaint (by simp) (by simp) hends h hline hbelow hquote

/-- A line that begins in a block comment, which it closes or not, is painted with the tokens
    on it. -/
theorem paintedWith_within {u carried after : List Char} (hcarried : '\x7d' ∉ carried)
    (hrest : line ++ below = carried ++ '\x7d' :: after) (h : Pieces after qs [])
    (hline : '\n' ∉ line) (hbelow : NotNext (· ≠ '\n') below)
    (hquote : ∀ p ∈ qs, p.1 ≠ .lexeme (.charConst '\n')) :
    PaintedWith true line
      (((rowsOf 1 (before ++ (.block, u ++ '\n' :: (carried ++ ['\x7d'])) :: qs)).filter
        (·.1 = 1 + (written before ++ u ++ ['\n']).count '\n')).map Prod.snd) := by
  rcases exists_of_append_eq hrest with ⟨rest, rfl⟩ | ⟨mid, rfl, rfl⟩
  · -- The line closes the comment. What is behind it is painted as a line that begins there.
    obtain rfl : rest ++ below = after := by simpa using hrest
    rw [List.append_cons] at hline ⊢
    have hends : EndsLine (before ++ [(.block, u ++ '\n' :: (carried ++ ['\x7d']))]) :=
      endsLine_append_singleton (by simp) rfl before
    have hpaint : linePaint true (carried ++ ['\x7d'] ++ rest) =
        (restPaint (carried ++ ['\x7d'] ++ rest) (carried ++ ['\x7d']).length).map
          fun (paints, isOpen) =>
            ([⟨0, (carried ++ ['\x7d']).length, commentStyle⟩] ++ paints, isOpen) :=
      linePaint_of_closed hcarried rest
    have hcovered : ∀ i < (carried ++ ['\x7d']).length,
        Covered [⟨0, (carried ++ ['\x7d']).length, commentStyle⟩] i := fun i hi =>
      ⟨_, List.mem_cons_self, Paint.covers_iff.2 ⟨Nat.zero_le i, by simpa using hi⟩⟩
    have hpainted := paintedWith_rest hpaint (by simp) hcovered hends h
      (fun hmem => hline (List.mem_append_right _ hmem)) hbelow hquote
    have hcount : (carried ++ ['\x7d']).count '\n' = 0 :=
      List.count_eq_zero.2 fun hmem => hline (List.mem_append_left _ hmem)
    have hsame : (written (before ++ [(.block, u ++ '\n' :: (carried ++ ['\x7d']))])).count '\n' =
        (written before ++ u ++ ['\n']).count '\n' := by
      simp [written, hcount]
    rwa [hsame, List.append_assoc before, List.singleton_append] at hpainted
  · -- The comment goes on below the line, and no token ends before it does.
    have hmid : '\n' ∈ line ++ mid ++ ['\x7d'] := by
      cases mid with
      | nil => cases hbelow _ rfl
      | cons c mid =>
        obtain rfl : c = '\n' := by simpa using hbelow c rfl
        simp
    rw [filter_rowsOf_open hmid]
    exact paintedWith_open fun hmem => hcarried (List.mem_append_left _ hmem)

/-- A line is painted with the tokens of the text on it, if the editor shows the pieces of the
    text as what they are, and no quotes stand around a newline. -/
theorem paintedWith_of_showsPieces {text : List Char} (h : Pieces text ps [])
    (hquote : ∀ p ∈ ps, p.1 ≠ .lexeme (.charConst '\n')) (hshows : ShowsPieces (ofLine false) ps)
    (hline : IsLine text above line below) :
    PaintedWith ((ofLine false).after above).inside line
      (((rowsOf 1 ps).filter (·.1 = 1 + above.count '\n')).map Prod.snd) := by
  obtain ⟨rfl, habove, hlast, hbelow⟩ := hline
  obtain ⟨before, qs, rfl, rfl, hqs, hbefore⟩ |
    ⟨before, u, carried, after, qs, rfl, rfl, hcarried, hrest, hqs⟩ := h.place_of_line habove hquote
  · have hplace : ((ofLine false).after (written before)).inside = false ∧ EndsLine before := by
      rcases hbefore with rfl | ⟨init, rfl⟩
      · exact ⟨rfl, endsLine_nil⟩
      · rw [List.append_assoc] at hshows
        have hnewline := inside_of_showsPieces (u := []) (v := []) hshows
        have heq : written (init ++ [(.blank, ['\n'])]) = written init ++ [] ++ ['\n'] := by
          simp [written]
        rw [heq]
        exact ⟨hnewline, endsLine_append_singleton List.mem_cons_self rfl init⟩
    rw [hplace.1]
    exact paintedWith_between hplace.2 hqs hlast hbelow
      fun p hp => hquote p (List.mem_append_right _ hp)
  · have hinside : ((ofLine false).after (written before ++ u ++ ['\n'])).inside = true :=
      inside_of_showsPieces hshows
    rw [hinside]
    exact paintedWith_within hcarried hrest hqs hlast hbelow
      fun p hp => hquote p (List.mem_append_right _ (List.mem_cons_of_mem _ hp))

/-! ### Agreement in full -/

theorem commentsAgree_iff_readAlike (h : (tokenize text).failure = none)
    (hlines : highlight text = .ok lines) :
    CommentsAgree text.toList lines ↔ readAlike false (pieces text.toList) = true := by
  obtain ⟨hpieces, -⟩ := pieces_spec h
  rw [commentsAgree_iff hpieces hlines]
  exact showsPieces_iff hpieces false

theorem not_mem_of_rows {ps : List (Piece × List Char)} {token : Token}
    (h : ∀ row ∈ rowsOf 1 ps, row.2 ≠ token) : ∀ p ∈ ps, p.1 ≠ .lexeme token := by
  rintro ⟨_, w⟩ hmem rfl
  obtain ⟨row, hrow, htoken⟩ := exists_row_of_mem hmem 1
  exact h row hrow htoken

/-- A text in which no quotes stand around a newline is highlighted if the editor reads its
    pieces as their lexer does. -/
theorem exists_highlight {text : String} (h : (tokenize text).failure = none)
    (hquote : ∀ row ∈ (tokenize text).rows, row.2 ≠ .charConst '\n')
    (halike : readAlike false (pieces text.toList) = true) :
    ∃ lines, highlight text = .ok lines := by
  obtain ⟨hpieces, hrows⟩ := pieces_spec h
  rw [hrows] at hquote
  have hshows := (showsPieces_iff hpieces false).2 halike
  refine exists_highlightLines fun above line below hline => ?_
  obtain ⟨_, _, _, _, _, hpaint, -⟩ :=
    paintedWith_of_showsPieces hpieces (not_mem_of_rows hquote) hshows hline
  exact ⟨_, hpaint⟩

/-- A text with tokens up to its end is highlighted unless the editor misreads its pieces or
    quotes stand around a newline. Editor and lexer then agree on its comments if and only if
    the editor reads the pieces as their lexer does: if there is no brace and no percent sign in a
    lexeme, a line comment closes the braces that it opens, and a percent sign in a block comment
    on one line has nothing but comments after it. -/
theorem comments_agree_iff {text : String} (h : (tokenize text).failure = none) :
    ((∀ row ∈ (tokenize text).rows, row.2 ≠ .charConst '\n') →
      readAlike false (pieces text.toList) = true → ∃ lines, highlight text = .ok lines) ∧
    ∀ lines, highlight text = .ok lines →
      (CommentsAgree text.toList lines ↔ readAlike false (pieces text.toList) = true) :=
  ⟨exists_highlight h, fun _ hlines => commentsAgree_iff_readAlike h hlines⟩

/-- A percent sign in braces that are open over the end of its line is no harm, nor are braces
    behind one that are closed. -/
theorem comments_agree_carried :
    (tokenize "a \x7bb %\n% c\x7d 'd' % \x7be\x7d f\n\x22g\x22").failure = none ∧
      ∃ lines, highlight "a \x7bb %\n% c\x7d 'd' % \x7be\x7d f\n\x22g\x22" = .ok lines ∧
        CommentsAgree "a \x7bb %\n% c\x7d 'd' % \x7be\x7d f\n\x22g\x22".toList lines := by
  have h : (tokenize "a \x7bb %\n% c\x7d 'd' % \x7be\x7d f\n\x22g\x22").failure = none := by
    decide +kernel
  obtain ⟨hexists, hiff⟩ := comments_agree_iff h
  obtain ⟨lines, hlines⟩ := hexists (by decide +kernel) (by decide +kernel)
  exact ⟨h, lines, hlines, (hiff lines hlines).2 (by decide +kernel)⟩

/-- To the editor a brace in a literal opens a comment. -/
theorem comments_disagree_on_literal :
    (tokenize "\x22\x7b\x22").failure = none ∧
      highlight "\x22\x7b\x22" =
        .ok [⟨[⟨0, 1, groupStyle .string⟩, ⟨1, 2, commentStyle⟩], true⟩] ∧
      ¬ CommentsAgree "\x22\x7b\x22".toList
        [⟨[⟨0, 1, groupStyle .string⟩, ⟨1, 2, commentStyle⟩], true⟩] := by
  have h : (tokenize "\x22\x7b\x22").failure = none := by decide +kernel
  have hlines : highlight "\x22\x7b\x22" =
      .ok [⟨[⟨0, 1, groupStyle .string⟩, ⟨1, 2, commentStyle⟩], true⟩] := by
    decide +kernel
  refine ⟨h, hlines, ?_⟩
  rw [commentsAgree_iff_readAlike h hlines]
  decide +kernel

end MiniPascal.Editor
