import MiniPascal.Proofs.Editor.Comments

/-!
# Pieces as the editor shows them

The editor takes a part of a text for a comment by the braces and percent signs alone. It shows
the pieces of a text as what they are to its lexer if and only if these open comments there and
nothing else, and close the braces that they open (`readAlike`, `showsPieces_iff`).
-/

namespace MiniPascal.Editor

open CommentState

/-- Whether a part of a text is a comment to its lexer. -/
def isComment (piece : Piece) : Bool :=
  piece = .block || piece = .line

/-- Whether the editor reads the pieces of a line as their lexer does, after a percent sign or not:
    no lexeme has a brace or a percent sign in it, a line comment closes the braces that it opens,
    and after a percent sign there are comments only. -/
def readAlike : Bool → List (Piece × List Char) → Bool
  | _, [] => true
  | marked, (.blank, w) :: ps =>
    if w.contains '\n' then readAlike false ps else !marked && readAlike false ps
  | marked, (.lexeme _, w) :: ps =>
    !marked && !w.contains '\x7b' && !w.contains '%' && readAlike false ps
  | _, (.line, w) :: ps => !w.foldl braces false && readAlike true ps
  | marked, (.block, w) :: ps =>
    readAlike (!w.contains '\n' && (marked || w.contains '%')) ps

/-- What is shown of a character: whether it is in a comment, or of the end of a line, whether the
    line leaves one open. -/
def flag (state : CommentState) (c : Char) : Bool :=
  if c = '\n' then state.inside else state.shows c

/-- What is shown of the characters of a text. -/
def flags : CommentState → List Char → List Bool
  | _, [] => []
  | state, c :: cs => flag state c :: flags (state.step c) cs

theorem flags_append (state : CommentState) (cs cs' : List Char) :
    flags state (cs ++ cs') = flags state cs ++ flags (state.after cs) cs' := by
  induction cs generalizing state with
  | nil => rfl
  | cons c cs ih => rw [List.cons_append, flags, flags, ih, after_cons, List.cons_append]

@[simp] theorem length_flags (state : CommentState) (cs : List Char) :
    (flags state cs).length = cs.length := by
  induction cs generalizing state with
  | nil => rfl
  | cons c cs ih => rw [flags, List.length_cons, ih, List.length_cons]

theorem flags_cons_eq_replicate_iff {state : CommentState} {c : Char} {cs : List Char} {b : Bool} :
    flags state (c :: cs) = List.replicate (c :: cs).length b ↔
      flag state c = b ∧ flags (state.step c) cs = List.replicate cs.length b := by
  rw [flags, List.length_cons, List.replicate_succ, List.cons.injEq]

/-! ### Pieces -/

/-- Outside comments, a character other than a brace or a percent sign changes nothing. -/
theorem plain_step {c : Char} (hbrace : c ≠ '\x7b') (hpercent : c ≠ '%') :
    (ofLine false).step c = ofLine false ∧ flag (ofLine false) c = false := by
  by_cases hnewline : c = '\n'
  · rw [hnewline]
    exact ⟨rfl, rfl⟩
  · rw [step_of_ne hnewline, flag, if_neg hnewline]
    simp [ofLine, braces, shows, hbrace, hpercent]

theorem after_plain {w : List Char} (hbrace : '\x7b' ∉ w) (hpercent : '%' ∉ w) :
    (ofLine false).after w = ofLine false := by
  induction w with
  | nil => rfl
  | cons c w ih =>
    simp only [List.mem_cons, not_or] at hbrace hpercent
    rw [after_cons, (plain_step (Ne.symm hbrace.1) (Ne.symm hpercent.1)).1,
      ih hbrace.2 hpercent.2]

/-- Nothing is shown as a comment if no comment seems to begin. -/
theorem flags_eq_false_iff (w : List Char) :
    flags (ofLine false) w = List.replicate w.length false ↔ '\x7b' ∉ w ∧ '%' ∉ w := by
  induction w with
  | nil => simp [flags]
  | cons c w ih =>
    rw [flags_cons_eq_replicate_iff]
    simp only [List.mem_cons, not_or]
    by_cases hplain : c ≠ '\x7b' ∧ c ≠ '%'
    · obtain ⟨hstep, hflag⟩ := plain_step hplain.1 hplain.2
      rw [hstep, ih]
      simp [hflag, Ne.symm hplain.1, Ne.symm hplain.2]
    · have hc : c = '\x7b' ∨ c = '%' := by tauto
      have hflag : flag (ofLine false) c = true := by rcases hc with rfl | rfl <;> decide
      rcases hc with rfl | rfl <;> simp [hflag]

/-- All of what stands in braces is shown as a comment. What is left of it is at most a percent
    sign on the line. -/
theorem flags_inside {cs : List Char} (h : '\x7d' ∉ cs) (carried marked : Bool) :
    flags ⟨true, carried, marked⟩ cs = List.replicate cs.length true ∧
      CommentState.after ⟨true, carried, marked⟩ cs =
        if cs.contains '\n' then ofLine true
        else ⟨true, carried, marked || (!carried && cs.contains '%')⟩ := by
  induction cs generalizing carried marked with
  | nil => simp [flags, CommentState.after]
  | cons c cs ih =>
    simp only [List.mem_cons, not_or] at h
    rw [flags_cons_eq_replicate_iff, after_cons]
    by_cases hnewline : c = '\n'
    · subst hnewline
      obtain ⟨hflags, hafter⟩ := ih h.2 true false
      refine ⟨⟨rfl, hflags⟩, ?_⟩
      rw [step_newline, ofLine, hafter]
      simp [ofLine]
    · have hstep : CommentState.step ⟨true, carried, marked⟩ c =
          ⟨true, carried, marked || (!carried && c = '%')⟩ := by
        rw [step_of_ne hnewline]
        simp [braces, Ne.symm h.1]
      obtain ⟨hflags, hafter⟩ := ih h.2 carried (marked || (!carried && c = '%'))
      rw [hstep]
      refine ⟨⟨?_, hflags⟩, ?_⟩
      · rw [flag, if_neg hnewline]
        rfl
      · rw [hafter, List.contains_cons, List.contains_cons, beq_false_of_ne (Ne.symm hnewline),
          Bool.false_or, Bool.or_assoc, ← Bool.and_or_distrib_left, Bool.beq_comm (a := '%'),
          beq_eq_decide]

/-- A block comment is shown as one. -/
theorem flags_block {inside : List Char} (h : '\x7d' ∉ inside) (marked : Bool) :
    flags ⟨false, false, marked⟩ ('\x7b' :: (inside ++ ['\x7d'])) =
        List.replicate ('\x7b' :: (inside ++ ['\x7d'])).length true ∧
      CommentState.after ⟨false, false, marked⟩ ('\x7b' :: (inside ++ ['\x7d'])) =
        ⟨false, false, !inside.contains '\n' && (marked || inside.contains '%')⟩ := by
  obtain ⟨hflags, hafter⟩ := flags_inside h false marked
  have hopen : CommentState.step ⟨false, false, marked⟩ '\x7b' = ⟨true, false, marked⟩ := by
    simp [step_of_ne, braces]
  rw [flags_cons_eq_replicate_iff, after_cons, hopen, flags_append, after_append, hflags, hafter]
  refine ⟨⟨by simp [flag, shows], ?_⟩, ?_⟩
  · rw [List.length_append, ← List.replicate_append_replicate]
    split <;> rfl
  · split <;> simp_all [CommentState.after, step_of_ne, braces, ofLine]

/-- A line comment is shown as one. -/
theorem flags_line {inside : List Char} (h : '\n' ∉ inside) (marked : Bool) :
    flags ⟨false, false, marked⟩ ('%' :: inside) = List.replicate ('%' :: inside).length true ∧
      CommentState.after ⟨false, false, marked⟩ ('%' :: inside) =
        ⟨('%' :: inside).foldl braces false, false, true⟩ := by
  have hopen : CommentState.step ⟨false, false, marked⟩ '%' = ⟨false, false, true⟩ := by
    simp [step_of_ne, braces]
  have hmarked {cs : List Char} (hcs : '\n' ∉ cs) (b : Bool) :
      flags ⟨b, false, true⟩ cs = List.replicate cs.length true := by
    induction cs generalizing b with
    | nil => rfl
    | cons c cs ih =>
      simp only [List.mem_cons, not_or] at hcs
      rw [flags_cons_eq_replicate_iff, step_of_ne (Ne.symm hcs.1), flag, if_neg (Ne.symm hcs.1)]
      exact ⟨by simp [shows], ih hcs.2 _⟩
  rw [flags_cons_eq_replicate_iff, after_cons, hopen, after_uncarried h, hmarked h]
  exact ⟨⟨by simp [flag, shows], rfl⟩, by simp [braces]⟩

/-- What is shown of pieces is what they are, and at their end no comment is open. -/
def ShowsPieces (state : CommentState) (ps : List (Piece × List Char)) : Prop :=
  flags state (written ps) = (labels ps).map isComment ∧
    (state.after (written ps)).inside = false

theorem showsPieces_cons {state : CommentState} {piece : Piece} {w : List Char}
    {ps : List (Piece × List Char)} : ShowsPieces state ((piece, w) :: ps) ↔
      flags state w = List.replicate w.length (isComment piece) ∧
        ShowsPieces (state.after w) ps := by
  rw [ShowsPieces, ShowsPieces, written_cons, labels_cons, flags_append, after_append,
    List.map_append, List.map_replicate]
  constructor
  · rintro ⟨hflags, hend⟩
    obtain ⟨hfirst, hrest⟩ := List.append_inj hflags (by simp)
    exact ⟨hfirst, hrest, hend⟩
  · rintro ⟨hfirst, hrest, hend⟩
    exact ⟨by rw [hfirst, hrest], hend⟩

/-- Braces left open at the end of a line are not shown as what they are. -/
theorem not_showsPieces_of_open {text : List Char} {ps : List (Piece × List Char)}
    (h : Pieces text ps []) (hnext : NotNext (· ≠ '\n') text) (carried marked : Bool) :
    ¬ ShowsPieces ⟨true, carried, marked⟩ ps := by
  generalize hrest : [] = rest at h
  cases h with
  | nil =>
    rintro ⟨-, hend⟩
    cases hend
  | @cons piece w text _ ps hpiece hps =>
    rw [showsPieces_cons]
    rintro ⟨hflags, -⟩
    cases hpiece with
    | @blank c _ hc =>
      obtain rfl : c = '\n' := by simpa using hnext c rfl
      cases hflags
    | block | line => cases hnext _ rfl
    | lexeme hlexeme =>
      obtain ⟨c, w, rfl⟩ := List.exists_cons_of_ne_nil hlexeme.ne_nil
      exact hlexeme.ne_newline (by simpa using hnext c rfl)

/-- Pieces are shown as what they are if and only if the editor reads them as their lexer does. -/
theorem showsPieces_iff {text : List Char} {ps : List (Piece × List Char)} (h : Pieces text ps [])
    (marked : Bool) : ShowsPieces ⟨false, false, marked⟩ ps ↔ readAlike marked ps = true := by
  generalize hrest : [] = rest at h
  induction h generalizing marked with
  | nil => simp [ShowsPieces, written, labels, flags, CommentState.after, readAlike]
  | @cons piece w text rest ps hpiece hps ih =>
    rw [showsPieces_cons]
    cases hpiece with
    | @blank c _ hc =>
      by_cases hnewline : c = '\n'
      · subst hnewline
        have hafter : CommentState.after ⟨false, false, marked⟩ ['\n'] = ⟨false, false, false⟩ :=
          rfl
        rw [hafter, ih false hrest]
        simp [flags, flag, isComment, readAlike]
      · have hbrace : c ≠ '\x7b' := by
          rintro rfl
          exact absurd hc (by decide)
        have hpercent : c ≠ '%' := by
          rintro rfl
          exact absurd hc (by decide)
        have hafter : CommentState.after ⟨false, false, marked⟩ [c] = ⟨false, false, marked⟩ := by
          simp [CommentState.after, step_of_ne hnewline, braces, hbrace, hpercent]
        -- Behind a percent sign a blank is shown as part of a comment, which it is not.
        have hflags : flags ⟨false, false, marked⟩ [c] = [marked] := by
          simp [flags, flag, hnewline, shows, hbrace, hpercent]
        rw [hafter, hflags]
        cases marked with
        | false => simpa [isComment, readAlike, Ne.symm hnewline] using ih false hrest
        | true => simp [isComment, readAlike, Ne.symm hnewline]
    | @block inside _ hinside =>
      obtain ⟨hflags, hafter⟩ := flags_block hinside marked
      rw [hafter, ih _ hrest, readAlike]
      simp [hflags, isComment]
    | @line inside _ hinside hnext =>
      obtain ⟨hflags, hafter⟩ := flags_line hinside marked
      rw [hafter, readAlike]
      -- Braces that a line comment leaves open are open at its newline, which is a blank.
      cases ('%' :: inside).foldl braces false with
      | false => simpa [hflags, isComment] using ih true hrest
      | true =>
        subst hrest
        simp [not_showsPieces_of_open hps hnext]
    | @lexeme _ _ token hlexeme =>
      rw [readAlike]
      cases marked with
      | false =>
        have hflags : flags ⟨false, false, false⟩ w =
            List.replicate w.length (isComment (.lexeme token)) ↔ '\x7b' ∉ w ∧ '%' ∉ w :=
          flags_eq_false_iff w
        rw [hflags]
        by_cases hplain : '\x7b' ∉ w ∧ '%' ∉ w
        · have hafter : CommentState.after ⟨false, false, false⟩ w = ⟨false, false, false⟩ :=
            after_plain hplain.1 hplain.2
          rw [hafter, ih false hrest]
          simp [hplain]
        · rcases not_and_or.1 hplain with hmem | hmem <;> simp [not_not.1 hmem]
      | true =>
        obtain ⟨c, tail, rfl⟩ := List.exists_cons_of_ne_nil hlexeme.ne_nil
        rw [flags_cons_eq_replicate_iff, flag, if_neg hlexeme.ne_newline]
        simp [shows, isComment]

/-! ### Positions -/

/-- Every place in a text is on a line. -/
theorem exists_isLine (before after : List Char) : ∃ above left right below,
    IsLine (before ++ after) above (left ++ right) below ∧ before = above ++ left ∧
      after = right ++ below := by
  have habove : ∃ above left, before = above ++ left ∧ (∀ c ∈ above.getLast?, c = '\n') ∧
      '\n' ∉ left := by
    induction before with
    | nil => exact ⟨[], [], rfl, nofun, List.not_mem_nil⟩
    | cons c before ih =>
      obtain ⟨above, left, rfl, habove, hleft⟩ := ih
      by_cases hnil : above = []
      · subst hnil
        by_cases hc : c = '\n'
        · exact ⟨[c], left, rfl, by simp [hc], hleft⟩
        · exact ⟨[], c :: left, rfl, nofun, by simp [Ne.symm hc, hleft]⟩
      · refine ⟨c :: above, left, rfl, fun d hd => habove d ?_, hleft⟩
        rwa [List.getLast?_cons_of_ne_nil hnil] at hd
  obtain ⟨above, left, rfl, habove, hleft⟩ := habove
  obtain ⟨right, below, rfl, hright, hbelow⟩ := exists_run (· ≠ '\n') after
  refine ⟨above, left, right, below, ⟨by simp, habove, ?_, hbelow⟩, rfl, rfl⟩
  rw [List.mem_append, not_or]
  exact ⟨hleft, fun hmem => by simpa using hright _ hmem⟩

theorem getElem?_flags (state : CommentState) (before : List Char) (c : Char) (after : List Char) :
    (flags state (before ++ c :: after))[before.length]? = some (flag (state.after before) c) := by
  rw [flags_append, List.getElem?_append_right (by simp), length_flags, Nat.sub_self]
  rfl

/-- What is shown of a text is right if it is at every place. -/
theorem showsPieces_iff_forall {state : CommentState} {ps : List (Piece × List Char)} :
    ShowsPieces state ps ↔
      (∀ before c after, written ps = before ++ c :: after →
        (labels ps)[before.length]?.map isComment = some (flag (state.after before) c)) ∧
      (state.after (written ps)).inside = false := by
  refine and_congr_left fun _ => ⟨?_, fun h => List.ext_getElem? fun n => ?_⟩
  · rintro hflags before c after heq
    rw [← List.getElem?_map, ← hflags, heq, getElem?_flags]
  · by_cases hn : n < (written ps).length
    · have heq : written ps =
          (written ps).take n ++ (written ps)[n] :: (written ps).drop (n + 1) := by
        rw [← List.drop_eq_getElem_cons hn, List.take_append_drop]
      have hat := h _ _ _ heq
      have hflag := getElem?_flags state ((written ps).take n) (written ps)[n]
        ((written ps).drop (n + 1))
      rw [← heq] at hflag
      rw [List.length_take_of_le (Nat.le_of_lt hn)] at hat hflag
      rw [hflag, List.getElem?_map, hat]
    · rw [List.getElem?_eq_none (by simpa using hn), List.getElem?_eq_none (by simpa using hn)]

/-- A newline that is shown as what it is leaves braces open if and only if it is in a comment. -/
theorem inside_of_showsPieces {before after : List (Piece × List Char)} {piece : Piece}
    {u v : List Char}
    (h : ShowsPieces (ofLine false) (before ++ (piece, u ++ '\n' :: v) :: after)) :
    ((ofLine false).after (written before ++ u ++ ['\n'])).inside = isComment piece := by
  have hflag := (showsPieces_iff_forall.1 h).1 (written before ++ u) '\n' (v ++ written after)
    (by simp)
  rw [getElem?_labels] at hflag
  rw [after_append]
  exact (Option.some.inj hflag).symm

/-- A line comment ends before its newline. -/
theorem label_ne_line {text before after : List Char} {ps : List (Piece × List Char)}
    (h : Pieces text ps []) (heq : text = before ++ '\n' :: after) :
    (labels ps)[before.length]? ≠ some .line := by
  generalize hrest : [] = rest at h
  induction h generalizing before with
  | nil => simp [labels]
  | @cons piece w text rest ps hpiece _ ih =>
    rw [labels_cons]
    rcases exists_of_append_eq heq with ⟨mid, rfl⟩ | ⟨mid, rfl, rfl⟩
    · rw [List.getElem?_append_left (by simp), List.getElem?_replicate_of_lt (by simp)]
      rintro ⟨⟩
      cases before with
      | nil => cases hpiece
      | cons d before =>
        cases hpiece with
        | line hinside => simp at hinside
    · rw [List.length_append, List.getElem?_append_right (by simp), List.length_replicate,
        Nat.add_sub_cancel_left]
      exact ih rfl hrest

end MiniPascal.Editor
