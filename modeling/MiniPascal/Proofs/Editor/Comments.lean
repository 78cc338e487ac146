import MiniPascal.Proofs.Editor.Coats
import MiniPascal.Proofs.Lexer.Pieces

/-!
# What the editor takes for comments

The editor looks for the comments of a line on its own, whatever tokens it finds there. What it
takes for comments can be told by going over a whole text once, character by character, with
three facts in mind (`CommentState`): whether braces are open, whether they were opened on a
line before, and whether there is a percent sign on the line. A character is shown as part of a
comment, and a line leaves a comment open, just as these say (`shown_comments`).
-/

namespace MiniPascal.Editor

/-- What the editor makes of the comments before a place in a text. -/
structure CommentState where
  /-- Whether braces are open. -/
  inside : Bool
  /-- Whether they have been since the line before. -/
  carried : Bool
  /-- Whether there is a percent sign on the line, but not in braces open since the line before. -/
  marked : Bool
  deriving DecidableEq, Repr

namespace CommentState

/-- Whether braces are open after a character. -/
def braces (inside : Bool) (c : Char) : Bool :=
  if inside then c ≠ '\x7d' else c = '\x7b'

/-- The beginning of a line. -/
def ofLine (inside : Bool) : CommentState :=
  ⟨inside, inside, false⟩

/-- The place after one more character. -/
def step (state : CommentState) (c : Char) : CommentState :=
  if c = '\n' then ofLine state.inside
  else ⟨braces state.inside c, state.carried && c ≠ '\x7d',
    state.marked || (!state.carried && c = '%')⟩

/-- The place after more characters. -/
def after (state : CommentState) (cs : List Char) : CommentState :=
  cs.foldl step state

/-- Whether a character at a place is shown as part of a comment. -/
def shows (state : CommentState) (c : Char) : Bool :=
  state.inside || state.marked || c = '%' || c = '\x7b'

theorem shows_iff {state : CommentState} {c : Char} : state.shows c = true ↔
    state.inside = true ∨ state.marked = true ∨ c = '%' ∨ c = '\x7b' := by
  simp [shows, or_assoc]

theorem after_append (state : CommentState) (cs cs' : List Char) :
    state.after (cs ++ cs') = (state.after cs).after cs' :=
  List.foldl_append

theorem after_cons (state : CommentState) (c : Char) (cs : List Char) :
    state.after (c :: cs) = (state.step c).after cs := rfl

theorem step_newline (state : CommentState) : state.step '\n' = ofLine state.inside := rfl

theorem step_of_ne {c : Char} (h : c ≠ '\n') (state : CommentState) :
    state.step c = ⟨braces state.inside c, state.carried && c ≠ '\x7d',
      state.marked || (!state.carried && c = '%')⟩ :=
  if_neg h

/-- On the rest of a line braces and percent signs do not depend on each other. -/
theorem after_uncarried {cs : List Char} (h : '\n' ∉ cs) (inside marked : Bool) :
    after ⟨inside, false, marked⟩ cs =
      ⟨cs.foldl braces inside, false, marked || cs.contains '%'⟩ := by
  induction cs generalizing inside marked with
  | nil => simp [after]
  | cons c cs ih =>
    obtain ⟨hc, hcs⟩ := not_or.1 (mt List.mem_cons.2 h)
    rw [after_cons, step_of_ne (Ne.symm hc)]
    simp only [Bool.false_and, Bool.not_false, Bool.true_and, ih hcs, List.foldl_cons,
      List.contains_cons, Bool.or_assoc]
    rw [Bool.beq_comm, beq_eq_decide]

theorem shows_uncarried {left : List Char} {c : Char} (h : '\n' ∉ left) :
    ((ofLine false).after left).shows c = true ↔
      (left.foldl braces false = true ∨ c = '\x7b') ∨ '%' ∈ left ++ [c] := by
  rw [ofLine, after_uncarried h, shows_iff, List.mem_append, List.mem_singleton]
  simp only [Bool.false_or, List.contains_iff_mem, Eq.comm (a := '%')]
  tauto

/-- Braces carried over stay open until they are closed. -/
theorem after_carried {cs : List Char} (h : '\x7d' ∉ cs) :
    (ofLine true).after cs = ofLine true := by
  induction cs with
  | nil => rfl
  | cons c cs ih =>
    obtain ⟨hc, hcs⟩ := not_or.1 (mt List.mem_cons.2 h)
    have hstep : (ofLine true).step c = ofLine true := by
      by_cases hnewline : c = '\n'
      · rw [hnewline]
        rfl
      · rw [step_of_ne hnewline]
        simp [ofLine, braces, Ne.symm hc]
    rw [after_cons, hstep, ih hcs]

/-- Once they are closed, the line goes on as if it began there. -/
theorem after_closed {cs : List Char} (h : '\x7d' ∉ cs) :
    (ofLine true).after (cs ++ ['\x7d']) = ofLine false := by
  rw [after_append, after_carried h]
  rfl

end CommentState

open CommentState

/-! ### The paint of comments -/

theorem style_of_mem_blockCommentPaint {pos : Nat} {opened : Option Nat} {cs : List Char}
    {paint : Paint} (h : paint ∈ (blockCommentPaint pos opened cs).1) :
    paint.style = commentStyle := by
  fun_induction blockCommentPaint pos opened cs with
  | case1 => cases h
  | case2 => rw [List.mem_singleton.1 h]
  | case3 _ _ _ ih => exact ih h
  | case4 pos opened cs paints isOpen heq ih =>
    rw [heq] at ih
    rcases List.mem_cons.1 h with rfl | h
    · rfl
    · exact ih h
  | case5 _ _ _ _ _ ih => exact ih h

/-- A line leaves a block comment open if it leaves braces open. -/
theorem isOpen_blockCommentPaint (pos : Nat) (opened : Option Nat) (cs : List Char) :
    (blockCommentPaint pos opened cs).2 = cs.foldl braces opened.isSome := by
  fun_induction blockCommentPaint pos opened cs with
  | case1 | case2 => rfl
  | case3 pos c cs ih =>
    rw [ih, List.foldl_cons]
    by_cases hc : c = '\x7b' <;> simp [braces, hc]
  | case4 pos opened cs paints isOpen heq ih =>
    rw [heq] at ih
    exact ih
  | case5 pos opened c cs hc ih =>
    rw [ih, List.foldl_cons]
    simp [braces, hc]

/-- Before the characters looked at, what is painted is a comment opened there. -/
theorem covered_blockCommentPaint_of_lt {pos i : Nat} {opened : Option Nat} (cs : List Char)
    (hi : i < pos) :
    Covered (blockCommentPaint pos opened cs).1 i ↔ opened.any (· ≤ i) = true := by
  fun_induction blockCommentPaint pos opened cs with
  | case1 => simp [Covered]
  | case2 pos opened =>
    simp only [Covered, List.mem_singleton, exists_eq_left, Paint.covers_iff, Option.any_some,
      decide_eq_true_iff]
    omega
  | case3 pos c cs ih =>
    rw [ih (Nat.lt_succ_of_lt hi)]
    by_cases hc : c = '\x7b' <;> simp [hc, hi]
  | case4 pos opened cs paints isOpen heq ih =>
    rw [heq] at ih
    rw [covered_cons, ih (Nat.lt_succ_of_lt hi), Paint.covers_iff]
    simp only [Option.any_none, Option.any_some, decide_eq_true_iff, Bool.false_eq_true, or_false]
    omega
  | case5 pos opened c cs hc ih => exact ih (Nat.lt_succ_of_lt hi)

/-- Among the characters looked at, what is painted is in braces or opens them. -/
theorem covered_blockCommentPaint {pos : Nat} {opened : Option Nat} (left : List Char) (c : Char)
    (right : List Char) (hopened : ∀ o ∈ opened, o ≤ pos) :
    Covered (blockCommentPaint pos opened (left ++ c :: right)).1 (pos + left.length) ↔
      left.foldl braces opened.isSome = true ∨ c = '\x7b' := by
  induction left generalizing pos opened with
  | nil =>
    -- What is painted here was opened before, or is opened here.
    rw [List.nil_append, List.length_nil, Nat.add_zero, List.foldl_nil]
    cases opened with
    | none =>
      rw [blockCommentPaint, covered_blockCommentPaint_of_lt right (Nat.lt_succ_self pos)]
      by_cases hc : c = '\x7b' <;> simp [hc]
    | some o =>
      have ho : o ≤ pos := hopened o rfl
      rw [blockCommentPaint]
      split
      · rw [covered_cons, Paint.covers_iff]
        simp only [Option.isSome_some, true_or, iff_true]
        left
        omega
      · rw [covered_blockCommentPaint_of_lt right (Nat.lt_succ_self pos)]
        simp [ho]
  | cons d left ih =>
    rw [List.cons_append, add_length_cons, List.foldl_cons]
    cases opened with
    | none =>
      rw [blockCommentPaint, ih]
      · by_cases hd : d = '\x7b' <;> simp [braces, hd]
      · by_cases hd : d = '\x7b' <;> simp [hd]
    | some o =>
      have ho : o ≤ pos := hopened o rfl
      rw [blockCommentPaint]
      split
      · next hd =>
        rw [covered_cons, Paint.covers_iff, ih (by simp)]
        have hbefore : ¬ (o ≤ pos + 1 + left.length ∧
            pos + 1 + left.length < o + (pos + 1 - o)) := by omega
        simp [hbefore, braces, hd]
      · next hd =>
        rw [ih (by simp; omega)]
        simp [braces, hd]

/-- A line comment goes from the first percent sign to the end of the line. -/
theorem covered_lineCommentPaint (pos : Nat) (left : List Char) (c : Char) (right : List Char) :
    Covered (lineCommentPaint pos (left ++ c :: right)) (pos + left.length) ↔
      '%' ∈ left ++ [c] := by
  rw [List.append_cons]
  obtain ⟨plain, comment, heq, hplain, rfl | ⟨after, rfl⟩⟩ :=
    exists_until '%' (left ++ [c] ++ right)
  · rw [List.append_nil] at heq
    have hnone : '%' ∉ left ++ [c] := fun hmem => hplain (heq ▸ List.mem_append_left right hmem)
    rw [heq, lineCommentPaint, (until_end hplain).2]
    simp [Covered, hnone]
  · have hcovered : Covered (lineCommentPaint pos (left ++ [c] ++ right)) (pos + left.length) ↔
        plain.length ≤ left.length := by
      have hlength := congrArg List.length heq
      rw [heq, lineCommentPaint, (until_append hplain after).2]
      simp only [Covered, List.mem_singleton, exists_eq_left, Paint.covers_iff, List.length_append,
        List.length_cons, List.length_nil] at hlength ⊢
      omega
    rw [hcovered]
    obtain ⟨mid, rfl, -⟩ | ⟨mid, hleft, hmid⟩ := List.append_eq_append_iff.1 heq
    · have hnone : '%' ∉ left ++ [c] := fun hmem => hplain (List.mem_append_left mid hmem)
      refine iff_of_false ?_ hnone
      rw [List.length_append, List.length_append, List.length_singleton]
      omega
    · have hlength := congrArg List.length hleft
      rw [List.length_append, List.length_append, List.length_singleton] at hlength
      rw [hleft]
      cases mid with
      | nil =>
        rw [List.length_nil] at hlength
        exact iff_of_false (by omega) (by rwa [List.append_nil])
      | cons d mid =>
        obtain ⟨rfl, -⟩ := List.cons.inj hmid
        rw [List.length_cons] at hlength
        exact iff_of_true (by omega) (by simp)

/-! ### Lines -/

theorem groupStyle_ne_commentStyle (group : Group) : groupStyle group ≠ commentStyle := by
  cases group <;> decide

/-- The paint of tokens on a line, from position `start` on. -/
def tokenPaints (line : List Char) (start : Nat) (rows : List (Nat × Token)) : List Paint :=
  rows.flatMap fun (_, token) => tokenPaint line start token

theorem mem_tokenPaints {line : List Char} {start : Nat} {rows : List (Nat × Token)}
    {paint : Paint} : paint ∈ tokenPaints line start rows ↔
      ∃ row ∈ rows, paint ∈ tokenPaint line start row.2 :=
  List.mem_flatMap

/-- The rest of a line is painted unless its tokens are aborted. -/
theorem restPaint_eq_ok_iff {line : List Char} {start : Nat} {result : List Paint × Bool} :
    restPaint line start = .ok result ↔
      (Lexer.ofChars (line.drop start)).tokenization.abort? = none ∧ result =
        (tokenPaints line start (Lexer.ofChars (line.drop start)).tokenization.rows ++
          lineCommentPaint start (line.drop start) ++
            (blockCommentPaint start none (line.drop start)).1,
          (blockCommentPaint start none (line.drop start)).2) := by
  rw [restPaint]
  simp only
  split
  · next habort => simp [habort]
  · next habort => simp [habort, tokenPaints, eq_comm]

theorem start_le_of_mem_lineCommentPaint {pos : Nat} {cs : List Char} {paint : Paint}
    (h : paint ∈ lineCommentPaint pos cs) : pos ≤ paint.start ∧ paint.style = commentStyle := by
  rw [lineCommentPaint] at h
  split at h
  · cases h
  · rw [List.mem_singleton.1 h]
    exact ⟨Nat.le_add_right _ _, rfl⟩

/-- On the rest of a line comments are shown from a brace to the next closing one, and from a
    percent sign to the end. Nothing before it is painted. -/
theorem comments_of_restPaint {start rest : List Char} {paints : List Paint} {isOpen : Bool}
    (h : restPaint (start ++ rest) start.length = .ok (paints, isOpen)) :
    isOpen = rest.foldl braces false ∧ (∀ i, Covered paints i → start.length ≤ i) ∧
      ∀ left c right, rest = left ++ c :: right →
        (topStyle paints (start.length + left.length) = some commentStyle ↔
          (left.foldl braces false = true ∨ c = '\x7b') ∨ '%' ∈ left ++ [c]) := by
  rw [restPaint_eq_ok_iff, List.drop_left] at h
  obtain ⟨-, hresult⟩ := h
  obtain ⟨rfl, rfl⟩ := Prod.mk.inj hresult
  refine ⟨isOpen_blockCommentPaint _ none rest, fun i hi => ?_, ?_⟩
  · by_contra hlt
    obtain ⟨paint, hmem, hcovers⟩ := hi
    have hstart := (Paint.covers_iff.1 hcovers).1
    rcases List.mem_append.1 hmem with hmem | hmem
    · rcases List.mem_append.1 hmem with hmem | hmem
      · obtain ⟨row, -, hmem⟩ := mem_tokenPaints.1 hmem
        have := (of_mem_tokenPaint hmem).2.1
        omega
      · have := (start_le_of_mem_lineCommentPaint hmem).1
        omega
    · have hnone := (covered_blockCommentPaint_of_lt rest (Nat.not_le.1 hlt)).1
        ⟨paint, hmem, hcovers⟩
      cases hnone
  · rintro left c right rfl
    have htokens : topStyle (tokenPaints (start ++ (left ++ c :: right)) start.length
        (Lexer.ofChars (left ++ c :: right)).tokenization.rows) (start.length + left.length) ≠
          some commentStyle := by
      intro htop
      obtain ⟨paint, hmem, -, hstyle⟩ := exists_of_topStyle htop
      obtain ⟨row, -, hmem⟩ := mem_tokenPaints.1 hmem
      rw [(of_mem_tokenPaint hmem).1] at hstyle
      exact groupStyle_ne_commentStyle _ hstyle
    rw [topStyle_append_of_alike fun _ => style_of_mem_blockCommentPaint,
      topStyle_append_of_alike fun _ hmem => (start_le_of_mem_lineCommentPaint hmem).2,
      covered_blockCommentPaint left c right (by simp), covered_lineCommentPaint]
    simp only [htokens, or_false, Option.isSome_none]

/-- A line that does not close the comment it begins in is part of it. -/
theorem linePaint_of_open {line : List Char} (h : '\x7d' ∉ line) :
    linePaint true line = .ok ([⟨0, line.length, commentStyle⟩], true) := by
  rw [linePaint, if_pos rfl, (until_end h).2]

/-- A line that closes the comment it begins in is part of it up to there. -/
theorem linePaint_of_closed {carried : List Char} (h : '\x7d' ∉ carried) (rest : List Char) :
    linePaint true (carried ++ ['\x7d'] ++ rest) =
      (restPaint (carried ++ ['\x7d'] ++ rest) (carried ++ ['\x7d']).length).map
        fun (paints, isOpen) =>
          (⟨0, (carried ++ ['\x7d']).length, commentStyle⟩ :: paints, isOpen) := by
  have hlength : (carried ++ ['\x7d'] ++ rest).length - rest.length =
      (carried ++ ['\x7d']).length := by
    rw [List.length_append, Nat.add_sub_cancel]
  have hclosed := (until_append h rest).2
  rw [List.append_cons] at hclosed
  rw [linePaint, if_pos rfl, hclosed]
  simp only [hlength]
  cases restPaint (carried ++ ['\x7d'] ++ rest) (carried ++ ['\x7d']).length <;> rfl

theorem comments_of_closed {carried rest : List Char} {paints : List Paint} {isOpen : Bool}
    (hcarried : '\x7d' ∉ carried) (hline : '\n' ∉ carried ++ ['\x7d'] ++ rest)
    (h : restPaint (carried ++ ['\x7d'] ++ rest) (carried ++ ['\x7d']).length =
      .ok (paints, isOpen)) :
    isOpen = ((ofLine true).after (carried ++ ['\x7d'] ++ rest)).inside ∧
      ∀ left c right, carried ++ ['\x7d'] ++ rest = left ++ c :: right →
        (topStyle (⟨0, (carried ++ ['\x7d']).length, commentStyle⟩ :: paints) left.length =
            some commentStyle ↔
          ((ofLine true).after left).shows c = true) := by
  obtain ⟨rfl, hbefore, hcomments⟩ := comments_of_restPaint h
  have hlast : '\n' ∉ rest := fun hmem => hline (List.mem_append_right _ hmem)
  refine ⟨?_, fun left c right heq => ?_⟩
  · rw [after_append, after_closed hcarried, ofLine, after_uncarried hlast]
  rw [topStyle_cons]
  simp only [Paint.covers_iff, Nat.zero_le, true_and, Nat.zero_add]
  rcases exists_of_append_eq heq with ⟨mid, hstart⟩ | ⟨mid, rfl, rfl⟩
  · -- The comment carried over is below the paint of the rest, which is not there.
    have hlt : left.length < (carried ++ ['\x7d']).length := by
      rw [hstart, List.length_append, List.length_cons]
      omega
    have hnone : topStyle paints left.length = none :=
      topStyle_eq_none_iff.2 fun hcovered => Nat.not_le.2 hlt (hbefore _ hcovered)
    have hleft : left <+: carried := by
      refine List.prefix_of_prefix_length_le (hstart ▸ List.prefix_append left _)
        (List.prefix_append carried _) ?_
      rw [List.length_append, List.length_singleton] at hlt
      omega
    have hopen : (ofLine true).after left = ofLine true :=
      after_carried fun hmem => hcarried (hleft.subset hmem)
    rw [hnone, if_pos hlt, hopen]
    simp [shows_iff, ofLine]
  · have hmid : '\n' ∉ mid := fun hmem => hlast (List.mem_append_left _ hmem)
    rw [if_neg (by simp), Option.or_none, List.length_append, hcomments mid c right rfl,
      after_append, after_closed hcarried, shows_uncarried hmid]

/-- What is shown as a comment on a line, and whether it leaves one open. -/
theorem comments_of_linePaint {inside : Bool} {line : List Char} {paints : List Paint}
    {isOpen : Bool} (hline : '\n' ∉ line) (h : linePaint inside line = .ok (paints, isOpen)) :
    isOpen = ((ofLine inside).after line).inside ∧
      ∀ left c right, line = left ++ c :: right →
        (topStyle paints left.length = some commentStyle ↔
          ((ofLine inside).after left).shows c = true) := by
  cases inside with
  | false =>
    rw [linePaint, if_neg Bool.false_ne_true, ← List.nil_append line] at h
    obtain ⟨rfl, -, hcomments⟩ := comments_of_restPaint h
    refine ⟨by rw [ofLine, after_uncarried hline], ?_⟩
    rintro left c right rfl
    have hcomment := hcomments left c right rfl
    rwa [List.length_nil, Nat.zero_add,
      ← shows_uncarried fun hmem => hline (List.mem_append_left _ hmem)] at hcomment
  | true =>
    obtain ⟨carried, rest, rfl, hcarried, rfl | ⟨rest, rfl⟩⟩ := exists_until '\x7d' line
    · rw [List.append_nil] at hline h ⊢
      rw [linePaint_of_open hcarried] at h
      obtain ⟨rfl, rfl⟩ := Prod.mk.inj (Except.ok.inj h)
      refine ⟨by rw [after_carried hcarried]; rfl, ?_⟩
      rintro left c right rfl
      rw [after_carried fun hmem => hcarried (List.mem_append_left _ hmem), topStyle_singleton,
        if_pos]
      · simp [shows_iff, ofLine]
      · rw [Paint.covers_iff]
        simp
    · rw [List.append_cons] at hline h ⊢
      rw [linePaint_of_closed hcarried] at h
      cases hrest : restPaint (carried ++ ['\x7d'] ++ rest) (carried ++ ['\x7d']).length with
      | error abort =>
        rw [hrest] at h
        cases h
      | ok result =>
        rw [hrest] at h
        obtain ⟨rfl, rfl⟩ := Prod.mk.inj (Except.ok.inj h)
        exact comments_of_closed hcarried hline hrest

/-! ### Texts -/

/-- A line of a text, with what stands above and below it. -/
structure IsLine (text above line below : List Char) : Prop where
  eq : text = above ++ (line ++ below)
  above : ∀ c ∈ above.getLast?, c = '\n'
  line : '\n' ∉ line
  below : NotNext (· ≠ '\n') below

/-- A text is one line, or a line with a text below it. -/
theorem lines_induction {motive : List Char → Prop} (single : ∀ line, '\n' ∉ line → motive line)
    (cons : ∀ line rest, '\n' ∉ line → motive rest → motive (line ++ '\n' :: rest))
    (text : List Char) : motive text := by
  induction hn : text.length using Nat.strong_induction_on generalizing text with
  | _ n ih =>
    subst hn
    obtain ⟨line, rest, rfl, hline, rfl | ⟨rest, rfl⟩⟩ := exists_until '\n' text
    · rw [List.append_nil]
      exact single line hline
    · exact cons line rest hline (ih rest.length (by simp; omega) rest rfl)

variable {text above line below : List Char}

/-- Above the first line there is nothing. -/
theorem above_eq_nil (habove : ∀ c ∈ above.getLast?, c = '\n') (h : '\n' ∉ above) :
    above = [] := by
  by_contra hne
  have hmem := List.getLast_mem hne
  rw [habove _ (List.getLast?_eq_some_getLast hne)] at hmem
  exact h hmem

theorem IsLine.of_single (h : IsLine text above line below) (htext : '\n' ∉ text) :
    above = [] ∧ line = text := by
  obtain ⟨rfl, habove, hline, hbelow⟩ := h
  simp only [List.mem_append, not_or] at htext
  obtain ⟨hfirst, -, hlast⟩ := htext
  obtain rfl := above_eq_nil habove hfirst
  cases below with
  | nil => exact ⟨rfl, (List.append_nil line).symm⟩
  | cons c below =>
    obtain rfl : c = '\n' := by simpa using hbelow c rfl
    exact absurd List.mem_cons_self hlast

theorem IsLine.of_cons {first rest : List Char}
    (h : IsLine (first ++ '\n' :: rest) above line below) (hfirst : '\n' ∉ first) :
    (above = [] ∧ line = first) ∨
      ∃ above', above = first ++ '\n' :: above' ∧ IsLine rest above' line below := by
  obtain ⟨heq, habove, hline, hbelow⟩ := h
  obtain ⟨htake, hdrop⟩ := until_append hfirst rest
  obtain ⟨plain, rest', rfl, hplain, rfl | ⟨above', rfl⟩⟩ := exists_until '\n' above
  · rw [List.append_nil] at heq habove
    obtain rfl := above_eq_nil habove hplain
    rw [heq, List.nil_append, (run_append (run_of_not_mem hline) hbelow).1] at htake
    exact .inl ⟨rfl, htake⟩
  · rw [List.append_assoc, List.cons_append] at heq
    obtain ⟨htake', hdrop'⟩ := until_append hplain (above' ++ (line ++ below))
    rw [heq, htake'] at htake
    rw [heq, hdrop'] at hdrop
    subst htake
    refine .inr ⟨above', rfl, (List.cons.inj hdrop).2.symm, fun c hc => habove c ?_, hline, hbelow⟩
    rw [List.getLast?_append, List.getLast?_cons, Option.mem_def.1 hc]
    rfl

/-- Of all above a line only whether it leaves braces open matters to it. -/
theorem after_above (habove : ∀ c ∈ above.getLast?, c = '\n') (inside : Bool) :
    (ofLine inside).after above = ofLine ((ofLine inside).after above).inside := by
  rcases List.eq_nil_or_concat above with rfl | ⟨init, c, rfl⟩
  · rfl
  · obtain rfl := habove c (by simp)
    rw [List.concat_eq_append, after_append]
    rfl

theorem highlightLines_cons_eq_ok_iff {inside : Bool} {line : List Char}
    {lines : List (List Char)} {styled : List StyledLine} :
    highlightLines inside (line :: lines) = .ok styled ↔
      ∃ paints isOpen rest, linePaint inside line = .ok (paints, isOpen) ∧
        highlightLines isOpen lines = .ok rest ∧
          styled = ⟨runs 0 (styles line.length paints), isOpen⟩ :: rest := by
  rw [highlightLines]
  cases linePaint inside line with
  | error abort => exact iff_of_false nofun (by rintro ⟨_, _, _, ⟨⟩, _⟩)
  | ok result =>
    obtain ⟨paints, isOpen⟩ := result
    change (do
      let rest ← highlightLines isOpen lines
      return (⟨runs 0 (styles line.length paints), isOpen⟩ :: rest : List StyledLine)) = _ ↔ _
    cases hrest : highlightLines isOpen lines with
    | error abort =>
      refine iff_of_false nofun ?_
      rintro ⟨_, _, _, ⟨⟩, hrest', _⟩
      rw [hrest] at hrest'
      cases hrest'
    | ok rest =>
      constructor
      · rintro ⟨⟩
        exact ⟨_, _, _, rfl, hrest, rfl⟩
      · rintro ⟨_, _, _, ⟨⟩, hrest', rfl⟩
        rw [hrest] at hrest'
        cases hrest'
        rfl

/-- Every line is painted as the lines above it leave it. -/
theorem linePaint_of_highlightLines {inside : Bool} {lines : List StyledLine}
    (h : highlightLines inside (text.splitOn '\n') = .ok lines)
    (hline : IsLine text above line below) :
    ∃ paints isOpen,
      linePaint ((ofLine inside).after above).inside line = .ok (paints, isOpen) ∧
        lines[above.count '\n']? = some ⟨runs 0 (styles line.length paints), isOpen⟩ := by
  induction text using lines_induction generalizing inside lines above with
  | single text htext =>
    obtain ⟨rfl, rfl⟩ := hline.of_single htext
    rw [List.splitOn_eq_singleton htext, highlightLines_cons_eq_ok_iff] at h
    obtain ⟨paints, isOpen, rest, hpaint, -, rfl⟩ := h
    exact ⟨paints, isOpen, hpaint, rfl⟩
  | cons first rest hfirst ih =>
    rw [List.splitOn_append_cons_self_of_not_mem hfirst, highlightLines_cons_eq_ok_iff] at h
    obtain ⟨paints, isOpen, rest', hpaint, hrest, rfl⟩ := h
    rcases hline.of_cons hfirst with ⟨rfl, rfl⟩ | ⟨above', rfl, hline'⟩
    · exact ⟨paints, isOpen, hpaint, rfl⟩
    · -- The lines below are painted as the first one leaves it.
      obtain ⟨rfl, -⟩ := comments_of_linePaint hfirst hpaint
      obtain ⟨paints', isOpen', hpaint', hat⟩ := ih hrest hline'
      refine ⟨paints', isOpen', ?_, ?_⟩
      · rwa [after_append, after_cons, step_newline]
      · rwa [List.count_append, List.count_eq_zero.2 hfirst, Nat.zero_add, List.count_cons_self,
          List.getElem?_cons_succ]

/-- A text is highlighted if each of its lines can be painted. -/
theorem exists_highlightLines {inside : Bool}
    (h : ∀ above line below, IsLine text above line below →
      ∃ result, linePaint ((ofLine inside).after above).inside line = .ok result) :
    ∃ lines, highlightLines inside (text.splitOn '\n') = .ok lines := by
  induction text using lines_induction generalizing inside with
  | single text htext =>
    obtain ⟨⟨paints, isOpen⟩, hpaint⟩ :=
      h [] text [] ⟨by simp, nofun, htext, notNext_nil _⟩
    rw [List.splitOn_eq_singleton htext]
    exact ⟨_, highlightLines_cons_eq_ok_iff.2 ⟨paints, isOpen, [], hpaint, rfl, rfl⟩⟩
  | cons first rest hfirst ih =>
    obtain ⟨⟨paints, isOpen⟩, hpaint⟩ :=
      h [] first ('\n' :: rest) ⟨rfl, nofun, hfirst, notNext_cons _ _ (by decide)⟩
    obtain ⟨rfl, -⟩ := comments_of_linePaint hfirst hpaint
    -- The lines of the rest are lines of the text, with the first one above them.
    obtain ⟨lines, hlines⟩ := ih fun above line below hline => by
      have hbelow := h (first ++ '\n' :: above) line below ⟨?_, ?_, hline.line, hline.below⟩
      · rwa [after_append, after_cons, step_newline] at hbelow
      · rw [hline.eq, List.append_assoc, List.cons_append]
      · intro c hc
        rw [List.getLast?_append, List.getLast?_cons] at hc
        cases hlast : above.getLast? with
        | none =>
          rw [hlast] at hc
          cases hc
          rfl
        | some d =>
          rw [hlast] at hc
          cases hc
          exact hline.above _ hlast
    rw [List.splitOn_append_cons_self_of_not_mem hfirst]
    exact ⟨_, highlightLines_cons_eq_ok_iff.2 ⟨paints, _, lines, hpaint, hlines, rfl⟩⟩

/-- A character of a text is shown as part of a comment, and a line is left with a comment open,
    as one pass over the text says. -/
theorem shown_comments {text : String} {lines : List StyledLine}
    (h : highlight text = .ok lines) (hline : IsLine text.toList above line below) :
    ∃ styled, lines[above.count '\n']? = some styled ∧
      styled.inComment = ((ofLine false).after (above ++ line)).inside ∧
      ∀ left c right, line = left ++ c :: right →
        (styled.styleAt left.length = some commentStyle ↔
          ((ofLine false).after (above ++ left)).shows c = true) := by
  obtain ⟨paints, isOpen, hpaint, hat⟩ := linePaint_of_highlightLines h hline
  obtain ⟨hopen, hcomments⟩ := comments_of_linePaint hline.line hpaint
  refine ⟨_, hat, ?_, ?_⟩
  · rw [after_append, after_above hline.above]
    exact hopen
  · rintro left c right rfl
    rw [after_append, after_above hline.above, ← hcomments left c right rfl,
      styleAt_painted paints isOpen (by simp)]

end MiniPascal.Editor
