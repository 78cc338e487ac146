import Mathlib.Tactic.MkIffOfInductiveProp
import MiniPascal.Proofs.Editor.CommentAgreement

/-!
# Tokens in their colours

A lexeme is shown in the style of its token's kind (`Coloured`) if the editor finds it, and
nothing of another kind over it: if it is spelled like the token's source text, stands where
that is looked for, and is overlapped by no source text of another group (`Findable`). It is
not if no source text in that style stands over it (`lexemes_coloured`): a word in capitals is not
found, and has no colour at all.
-/

namespace MiniPascal.Editor

open CommentState Lexer

/-- Of the tokens of a line, one is found where its lexeme `w` stands behind `left`, and none of
    another group over it. -/
@[mk_iff]
structure Findable (line : List Char) (tokens : List Token) (left w : List Char)
    (token : Token) : Prop where
  /-- The lexeme is spelled like the source text. -/
  spelled : (sourceText token).toList = w
  /-- It is a whole word, if it is looked for as one. -/
  stands : Stands w line left.length
  /-- It is not passed over as a part of a place where the source text stands before. -/
  unhidden : ∀ j < left.length, Stands w line j → j + w.length ≤ left.length
  /-- What overlaps it is of the same group. -/
  alike : ∀ other ∈ tokens, ∀ j < left.length + w.length, Stands (sourceText other).toList line j →
    left.length < j + (sourceText other).toList.length → other.kind.group = token.kind.group

instance (line : List Char) (tokens : List Token) (left w : List Char) (token : Token) :
    Decidable (Findable line tokens left w token) :=
  decidable_of_iff _ (findable_iff line tokens left w token).symm

/-- The tokens of a text that end on a line. -/
def lineTokens (text : String) (line : Nat) : List Token :=
  ((tokenize text).rows.filter (·.1 = line)).map Prod.snd

/-- The source text of one of the tokens, and one that is shown in a style, stands over a
    position of a line. -/
def StandsOver (line : List Char) (tokens : List Token) (style : Style) (i : Nat) : Prop :=
  ∃ token ∈ tokens, groupStyle token.kind.group = style ∧
    ∃ j ≤ i, Stands (sourceText token).toList line j ∧ i < j + (sourceText token).toList.length

/-- A lexeme `w` behind `left` on a line is shown in the style of its token. -/
def Coloured (lines : List StyledLine) (above left w : List Char) (token : Token) : Prop :=
  ∃ styled ∈ lines[above.count '\n']?, ∀ i < w.length,
    styled.styleAt (left.length + i) = some (groupStyle token.kind.group)

variable {line left w : List Char} {token : Token}

/-- The paint of the tokens of a line shows a lexeme that is found in the style of its token. -/
theorem topStyle_tokenPaints {start : Nat} {rows : List (Nat × Token)} {i : Nat}
    (h : Findable line (rows.map Prod.snd) left w token) (htoken : token ∈ rows.map Prod.snd)
    (hline : left.length + w.length ≤ line.length) (hstart : start ≤ left.length)
    (hi : i < w.length) :
    topStyle (tokenPaints line start rows) (left.length + i) =
      some (groupStyle token.kind.group) := by
  obtain ⟨row, hrow, rfl⟩ := List.mem_map.1 htoken
  -- Its own token paints it, and what else paints it is of the same group.
  have hmem : ⟨left.length, (sourceText row.2).toList.length, groupStyle row.2.kind.group⟩ ∈
      tokenPaint line start row.2 := by
    refine mem_tokenPaint (by omega) hstart (h.spelled ▸ h.stands) fun j _ hj hstands => ?_
    rw [h.spelled] at hstands ⊢
    exact h.unhidden j hj hstands
  refine topStyle_eq_some ⟨_, mem_tokenPaints.2 ⟨row, hrow, hmem⟩, ?_⟩
    fun paint hpaint hcovers => ?_
  · rw [Paint.covers_iff, h.spelled]
    simp only
    omega
  · obtain ⟨other, hother, hpaint⟩ := mem_tokenPaints.1 hpaint
    obtain ⟨hstyle, -, hcount, hstands⟩ := of_mem_tokenPaint hpaint
    rw [Paint.covers_iff, hcount] at hcovers
    rw [hstyle, h.alike other.2 (List.mem_map_of_mem hother) _ (by omega) hstands (by omega)]

/-- The paint of the tokens of a line shows a style only where a source text in it stands. -/
theorem standsOver_of_topStyle {start i : Nat} {rows : List (Nat × Token)} {style : Style}
    (h : topStyle (tokenPaints line start rows) i = some style) :
    StandsOver line (rows.map Prod.snd) style i := by
  obtain ⟨paint, hpaint, hcovers, rfl⟩ := exists_of_topStyle h
  obtain ⟨row, hrow, hpaint⟩ := mem_tokenPaints.1 hpaint
  obtain ⟨hstyle, -, hcount, hstands⟩ := of_mem_tokenPaint hpaint
  rw [Paint.covers_iff, hcount] at hcovers
  exact ⟨row.2, List.mem_map_of_mem hrow, hstyle.symm, paint.start, hcovers.1, hstands, hcovers.2⟩

/-- Where no comment is shown, what is seen are the tokens. -/
theorem topStyle_of_paintedWith {under tokens onTop : List Paint} {i : Nat}
    (hcomments : ∀ paint ∈ under ++ onTop, paint.style = commentStyle)
    (hplain : topStyle (under ++ tokens ++ onTop) i ≠ some commentStyle) :
    topStyle (under ++ tokens ++ onTop) i = topStyle tokens i := by
  have honTop : ¬ Covered onTop i := fun hcovered => hplain <|
    (topStyle_append_of_alike fun paint hpaint =>
      hcomments paint (List.mem_append_right _ hpaint)).2 (.inl hcovered)
  rw [topStyle_append, topStyle_eq_none_iff.2 honTop, Option.none_or, topStyle_append] at hplain ⊢
  cases htokens : topStyle tokens i with
  | some style => rfl
  | none =>
    rw [htokens, Option.none_or] at hplain
    rw [Option.none_or, topStyle_eq_none_iff]
    exact fun hcovered => hplain <| topStyle_eq_some hcovered fun paint hpaint _ =>
      hcomments paint (List.mem_append_left _ hpaint)

/-- The coats below the tokens of a line do not reach a lexeme that is not shown as a comment. -/
theorem start_le_of_paintedWith {under onTop : List Paint} {start i : Nat}
    {rows : List (Nat × Token)}
    (hcomments : ∀ paint ∈ under ++ onTop, paint.style = commentStyle)
    (hunder : ∀ i < start, Covered under i)
    (hplain : topStyle (under ++ tokenPaints line start rows ++ onTop) i ≠ some commentStyle) :
    start ≤ i := by
  by_contra hlt
  have htokens : ¬ Covered (tokenPaints line start rows) i := by
    rintro ⟨paint, hpaint, hcovers⟩
    obtain ⟨row, -, hpaint⟩ := mem_tokenPaints.1 hpaint
    have hstart := (of_mem_tokenPaint hpaint).2.1
    have hle := (Paint.covers_iff.1 hcovers).1
    omega
  have htop : topStyle under i = some commentStyle :=
    topStyle_eq_some (hunder i (Nat.not_le.1 hlt)) fun paint hpaint _ =>
      hcomments paint (List.mem_append_left _ hpaint)
  refine hplain ((topStyle_append_of_alike fun paint hpaint =>
    hcomments paint (List.mem_append_right _ hpaint)).2 (.inr ?_))
  rw [topStyle_append, topStyle_eq_none_iff.2 htokens, Option.none_or, htop]

/-- The token of a lexeme is one of its line. -/
theorem mem_lineTokens {text : String} (h : (tokenize text).failure = none)
    {above left w right below : List Char} {before after : List (Piece × List Char)} {token : Token}
    (hline : IsLine text.toList above (left ++ w ++ right) below)
    (hpiece : pieces text.toList = before ++ (.lexeme token, w) :: after)
    (hbefore : written before = above ++ left) :
    token ∈ lineTokens text (1 + above.count '\n') := by
  have hplain : left.count '\n' = 0 ∧ w.count '\n' = 0 := by
    have hcount := List.count_eq_zero.2 hline.line
    simp only [List.count_append] at hcount
    omega
  refine List.mem_map.2 ⟨(1 + above.count '\n', token), List.mem_filter.2 ⟨?_, by simp⟩, rfl⟩
  rw [(pieces_spec h).2, hpiece, rowsOf_append, hbefore, List.count_append, hplain.1, rowsOf,
    hplain.2]
  exact List.mem_append_right _ List.mem_cons_self

/-- A lexeme is not shown as a comment where editor and lexer agree on them. -/
theorem styleAt_lexeme_ne {text : List Char} {lines : List StyledLine}
    (h : CommentsAgree text lines) {above left w right below : List Char}
    {before after : List (Piece × List Char)} {token : Token}
    (hline : IsLine text above (left ++ w ++ right) below)
    (hpiece : pieces text = before ++ (.lexeme token, w) :: after)
    (hbefore : written before = above ++ left) {i : Nat} (hi : i < w.length) :
    ∃ styled ∈ lines[above.count '\n']?,
      styled.styleAt (left.length + i) ≠ some commentStyle := by
  have hw : w = w.take i ++ w[i] :: w.drop (i + 1) := by
    rw [← List.drop_eq_getElem_cons hi, List.take_append_drop]
  have hlength : (left ++ w.take i).length = left.length + i := by
    rw [List.length_append, List.length_take_of_le (Nat.le_of_lt hi)]
  have hsplit : left ++ w ++ right = (left ++ w.take i) ++ w[i] :: (w.drop (i + 1) ++ right) := by
    conv_lhs => rw [hw]
    simp only [List.append_assoc, List.cons_append]
  rw [hsplit] at hline
  obtain ⟨styled, hat, hshown⟩ := h.shown _ _ _ _ _ hline
  have hlabel := getElem?_labels before (.lexeme token) (w.take i) w[i] (w.drop (i + 1)) after
  rw [← hw, ← hpiece, hbefore, List.append_assoc] at hlabel
  rw [hlength, hlabel] at hshown
  refine ⟨styled, hat, fun hcomment => ?_⟩
  obtain ⟨piece, hmem, hpiece⟩ := hshown.1 hcomment
  cases hmem
  cases hpiece

/-- What is seen of a lexeme are the tokens of its line. -/
theorem styleAt_lexeme {text : String} {lines : List StyledLine}
    (h : (tokenize text).failure = none)
    (hquote : ∀ row ∈ (tokenize text).rows, row.2 ≠ .charConst '\n')
    (halike : readAlike false (pieces text.toList) = true) (hlines : highlight text = .ok lines)
    {above left w right below : List Char} {before after : List (Piece × List Char)} {token : Token}
    (hline : IsLine text.toList above (left ++ w ++ right) below)
    (hpiece : pieces text.toList = before ++ (.lexeme token, w) :: after)
    (hbefore : written before = above ++ left) :
    ∃ styled start rows, lines[above.count '\n']? = some styled ∧
      rows.map Prod.snd = lineTokens text (1 + above.count '\n') ∧
      ∀ i < w.length, start ≤ left.length + i ∧ styled.styleAt (left.length + i) =
        topStyle (tokenPaints (left ++ w ++ right) start rows) (left.length + i) := by
  obtain ⟨hpieces, hrows⟩ := pieces_spec h
  have hshows := (showsPieces_iff hpieces false).2 halike
  have hagree := (commentsAgree_iff_readAlike h hlines).2 halike
  obtain ⟨under, start, rows, onTop, isOpen, hpaint, hcomments, hunder, htokens⟩ :=
    paintedWith_of_showsPieces hpieces (not_mem_of_rows (hrows ▸ hquote)) hshows hline
  obtain ⟨_, _, hpaint', hat⟩ := linePaint_of_highlightLines hlines hline
  obtain ⟨rfl, rfl⟩ := Prod.mk.inj (Except.ok.inj (hpaint.symm.trans hpaint'))
  refine ⟨_, start, rows, hat, by rw [lineTokens, hrows, htokens], fun i hi => ?_⟩
  have hlength : left.length + i < (left ++ w ++ right).length := by
    rw [List.length_append, List.length_append]
    omega
  -- No comment is seen there, so that no coat of one is in the way.
  obtain ⟨styled, hat', hplain⟩ := styleAt_lexeme_ne hagree hline hpiece hbefore hi
  rw [hat] at hat'
  cases hat'
  rw [styleAt_painted _ _ hlength] at hplain ⊢
  exact ⟨start_le_of_paintedWith hcomments hunder hplain, topStyle_of_paintedWith hcomments hplain⟩

/-- A lexeme is shown in the style of its token if it is found, and nothing of another group over
    it; and only if source texts in that style stand over it. This is so in a text that has tokens
    up to its end, whose comments the editor reads as the lexer does, and in which no quotes stand
    around a newline. -/
theorem lexemes_coloured {text : String} (h : (tokenize text).failure = none)
    (hquote : ∀ row ∈ (tokenize text).rows, row.2 ≠ .charConst '\n')
    (halike : readAlike false (pieces text.toList) = true) :
    ∃ lines, highlight text = .ok lines ∧
      ∀ above left w right below before token after,
        IsLine text.toList above (left ++ w ++ right) below →
        pieces text.toList = before ++ (.lexeme token, w) :: after →
        written before = above ++ left →
        (Findable (left ++ w ++ right) (lineTokens text (1 + above.count '\n')) left w token →
          Coloured lines above left w token) ∧
        (Coloured lines above left w token → ∀ i < w.length,
          StandsOver (left ++ w ++ right) (lineTokens text (1 + above.count '\n'))
            (groupStyle token.kind.group) (left.length + i)) := by
  obtain ⟨lines, hlines⟩ := exists_highlight h hquote halike
  refine ⟨lines, hlines, ?_⟩
  intro above left w right below before token after hline hpiece hbefore
  have htoken := mem_lineTokens h hline hpiece hbefore
  obtain ⟨styled, start, rows, hat, hrows, hseen⟩ :=
    styleAt_lexeme h hquote halike hlines hline hpiece hbefore
  rw [← hrows] at htoken ⊢
  constructor
  · intro hfindable
    refine ⟨styled, hat, fun i hi => ?_⟩
    obtain ⟨hstart, -⟩ := hseen 0 (Nat.zero_lt_of_lt hi)
    rw [(hseen i hi).2]
    exact topStyle_tokenPaints hfindable htoken (by simp) hstart hi
  · rintro ⟨styled', hat', hcoloured⟩ i hi
    rw [hat] at hat'
    cases hat'
    exact standsOver_of_topStyle ((hseen i hi).2.symm.trans (hcoloured i hi))

/-- A sign is found behind a comment carried over, though its beginning is a sign of its own. -/
theorem lexeme_coloured_carried :
    (tokenize "a \x7bb\nc\x7d d < e <= f").failure = none ∧
      ∃ lines, highlight "a \x7bb\nc\x7d d < e <= f" = .ok lines ∧
        Coloured lines "a \x7bb\n".toList "c\x7d d < e ".toList "<=".toList
          (.spelled .lessEqual) := by
  have h : (tokenize "a \x7bb\nc\x7d d < e <= f").failure = none := by decide +kernel
  obtain ⟨lines, hlines, hcoloured⟩ := lexemes_coloured h (by decide +kernel) (by decide +kernel)
  have hline : IsLine "a \x7bb\nc\x7d d < e <= f".toList "a \x7bb\n".toList
      ("c\x7d d < e ".toList ++ "<=".toList ++ " f".toList) [] :=
    ⟨by decide, by rintro c ⟨⟩; rfl, by decide, notNext_nil _⟩
  have hpiece : pieces "a \x7bb\nc\x7d d < e <= f".toList =
      (pieces "a \x7bb\nc\x7d d < e <= f".toList).take 10 ++
        (.lexeme (.spelled .lessEqual), "<=".toList) ::
          (pieces "a \x7bb\nc\x7d d < e <= f".toList).drop 11 := by
    decide +kernel
  obtain ⟨hfound, -⟩ := hcoloured _ _ _ _ _ _ _ _ hline hpiece (by decide +kernel)
  exact ⟨h, lines, hlines, hfound (by decide +kernel)⟩

/-- A word in capitals has no colour. -/
theorem capitals_not_coloured :
    (tokenize "PROGRAM").failure = none ∧
      pieces "PROGRAM".toList = [(.lexeme (.spelled .kwProgram), "PROGRAM".toList)] ∧
      highlight "PROGRAM" = .ok [⟨[], false⟩] ∧
      ¬ Coloured [⟨[], false⟩] [] [] "PROGRAM".toList (.spelled .kwProgram) := by
  refine ⟨by decide +kernel, by decide +kernel, by decide +kernel, ?_⟩
  rintro ⟨styled, ⟨⟩, hcoloured⟩
  have hfirst := hcoloured 0 (by decide)
  cases hfirst

end MiniPascal.Editor
