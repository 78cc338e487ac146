import MiniPascal.Editor.Highlight

/-!
# Coats of paint

Of several coats over one character the last one is seen (`topStyle`). A line that is painted
and cut into stretches of equal style shows at each of its characters the style on top there
(`styleAt_painted`).

A token paints the places where its source text is found. It is found nowhere but where it
stands (`standsAt_of_mem_occurrences`), and wherever it stands, unless a place found before
overlaps that one (`mem_occurrences_of_standsAt`).
-/

namespace MiniPascal.Editor

/-- Whether a coat covers a position. -/
def Paint.covers (paint : Paint) (i : Nat) : Bool :=
  paint.start ≤ i ∧ i < paint.start + paint.count

theorem Paint.covers_iff {paint : Paint} {i : Nat} :
    paint.covers i = true ↔ paint.start ≤ i ∧ i < paint.start + paint.count :=
  decide_eq_true_iff

/-- Some coat covers a position. -/
def Covered (paints : List Paint) (i : Nat) : Prop :=
  ∃ paint ∈ paints, paint.covers i = true

/-- The style on top of coats at a position. -/
def topStyle (paints : List Paint) (i : Nat) : Option Style :=
  (paints.reverse.find? (·.covers i)).map Paint.style

/-- The style of a character of a styled line. -/
def StyledLine.styleAt (line : StyledLine) (i : Nat) : Option Style :=
  (line.runs.find? (·.covers i)).map Paint.style

variable {paints paints' : List Paint} {i : Nat} {style : Style}

theorem covered_cons {paint : Paint} :
    Covered (paint :: paints) i ↔ paint.covers i = true ∨ Covered paints i := by
  simp [Covered]

/-! ### The coat on top -/

theorem topStyle_append (paints paints' : List Paint) (i : Nat) :
    topStyle (paints ++ paints') i = (topStyle paints' i).or (topStyle paints i) := by
  rw [topStyle, List.reverse_append, List.find?_append, Option.map_or]
  rfl

theorem topStyle_singleton (paint : Paint) (i : Nat) :
    topStyle [paint] i = if paint.covers i = true then some paint.style else none := by
  rw [topStyle, List.reverse_singleton, List.find?_singleton]
  split <;> rfl

theorem topStyle_cons (paint : Paint) (paints : List Paint) (i : Nat) :
    topStyle (paint :: paints) i =
      (topStyle paints i).or (if paint.covers i = true then some paint.style else none) := by
  rw [← topStyle_singleton]
  exact topStyle_append [paint] paints i

/-- Where no coat is, nothing is on top. -/
theorem topStyle_eq_none_iff : topStyle paints i = none ↔ ¬ Covered paints i := by
  simp [topStyle, Covered]

theorem exists_of_topStyle (h : topStyle paints i = some style) :
    ∃ paint ∈ paints, paint.covers i = true ∧ paint.style = style := by
  obtain ⟨paint, hfind, rfl⟩ := Option.map_eq_some_iff.1 h
  have hcovers := List.find?_some hfind
  exact ⟨paint, List.mem_reverse.1 (List.mem_of_find?_eq_some hfind), hcovers, rfl⟩

/-- If all coats at a position are alike, there is no telling which one is on top. -/
theorem topStyle_eq_some (hcovered : Covered paints i)
    (halike : ∀ paint ∈ paints, paint.covers i = true → paint.style = style) :
    topStyle paints i = some style := by
  cases htop : topStyle paints i with
  | none => exact absurd hcovered (topStyle_eq_none_iff.1 htop)
  | some style' =>
    obtain ⟨top, hmem, hcovers, rfl⟩ := exists_of_topStyle htop
    rw [halike top hmem hcovers]

/-- Coats of one style on top of others show wherever they are. -/
theorem topStyle_append_of_alike (halike : ∀ paint ∈ paints', paint.style = style) :
    topStyle (paints ++ paints') i = some style ↔
      Covered paints' i ∨ topStyle paints i = some style := by
  rw [topStyle_append]
  by_cases hcovered : Covered paints' i
  · rw [topStyle_eq_some hcovered fun paint hpaint _ => halike paint hpaint]
    simp [hcovered]
  · rw [topStyle_eq_none_iff.2 hcovered]
    simp [hcovered]

/-- What is painted shows the style on top, or what it showed before. -/
theorem getElem?_foldl_coat (cells : List (Option Style)) (paints : List Paint) (i : Nat) :
    (paints.foldl coat cells)[i]? = cells[i]?.map fun cell => (topStyle paints i).or cell := by
  induction paints generalizing cells with
  | nil => simp [topStyle]
  | cons paint paints ih =>
    have hcoat : (coat cells paint)[i]? = cells[i]?.map fun cell =>
        (if paint.covers i = true then some paint.style else none).or cell := by
      rw [coat, List.getElem?_mapIdx]
      simp only [Paint.covers_iff]
      split <;> simp
    rw [List.foldl_cons, ih, hcoat, Option.map_map]
    simp only [topStyle_cons, Function.comp_def, Option.or_assoc]

/-- The styles of a line are those on top. -/
theorem getElem?_styles {length : Nat} (paints : List Paint) (hi : i < length) :
    (styles length paints)[i]? = some (topStyle paints i) := by
  rw [styles, getElem?_foldl_coat, List.getElem?_replicate_of_lt hi, Option.map_some,
    Option.or_none]

/-! ### Stretches of equal style -/

theorem find?_cons_covers (run : Paint) (runs : List Paint) (i : Nat) :
    ((run :: runs).find? (·.covers i)).map Paint.style =
      if run.covers i = true then some run.style
      else (runs.find? (·.covers i)).map Paint.style := by
  rw [List.find?_cons]
  cases run.covers i <;> rfl

/-- One more character either begins a stretch of its own or extends the next one. -/
theorem find?_runs_some (pos : Nat) (style : Style) (cells : List (Option Style)) (i : Nat) :
    ((runs pos (some style :: cells)).find? (·.covers i)).map Paint.style =
      if i = pos then some style
      else ((runs (pos + 1) cells).find? (·.covers i)).map Paint.style := by
  have hsingle : (Paint.mk pos 1 style).covers i = true ↔ i = pos := by
    rw [Paint.covers_iff]
    simp only
    omega
  rw [runs]
  split
  · next hruns =>
    rw [hruns, find?_cons_covers]
    simp only [hsingle]
  · next run rest hruns =>
    rw [hruns]
    split
    · next hnext =>
      obtain ⟨hstart, rfl⟩ := hnext
      have hextended : (Paint.mk pos (run.count + 1) run.style).covers i = true ↔
          i = pos ∨ run.covers i = true := by
        rw [Paint.covers_iff, Paint.covers_iff, hstart]
        simp only
        omega
      rw [find?_cons_covers, find?_cons_covers]
      simp only [hextended]
      by_cases hi : i = pos <;> simp [hi]
    · rw [find?_cons_covers]
      simp only [hsingle]

/-- The stretches of a line show the styles that they were made from. -/
theorem find?_runs (pos : Nat) (cells : List (Option Style)) (i : Nat) :
    ((runs pos cells).find? (·.covers i)).map Paint.style =
      if i < pos then none else cells[i - pos]?.join := by
  induction cells generalizing pos with
  | nil => simp [runs]
  | cons cell cells ih =>
    have hcell : (if i < pos then none else (cell :: cells)[i - pos]?.join) =
        if i = pos then cell else if i < pos + 1 then none else cells[i - (pos + 1)]?.join := by
      rcases Nat.lt_trichotomy i pos with hlt | rfl | hgt
      · rw [if_pos hlt, if_neg (by omega), if_pos (by omega)]
      · simp
      · obtain ⟨k, rfl⟩ := Nat.exists_eq_add_of_lt hgt
        rw [if_neg (by omega), if_neg (by omega), if_neg (by omega), Nat.sub_add_eq,
          show pos + k + 1 - pos = k + 1 by omega]
        rfl
    rw [hcell, ← ih]
    cases cell with
    | none =>
      rw [runs]
      split
      · next hi => rw [ih, if_pos (by omega)]
      · rfl
    | some style => exact find?_runs_some pos style cells i

/-- A painted line shows at each character the style on top. -/
theorem styleAt_painted {length : Nat} (paints : List Paint) (inComment : Bool)
    (hi : i < length) :
    StyledLine.styleAt ⟨runs 0 (styles length paints), inComment⟩ i = topStyle paints i := by
  rw [StyledLine.styleAt, find?_runs, if_neg (Nat.not_lt_zero i), Nat.sub_zero,
    getElem?_styles paints hi, Option.join_some]

/-! ### Where a lexeme is found -/

/-- A lexeme stands at a position of a line. -/
def Stands (lexeme line : List Char) (pos : Nat) : Prop :=
  standsAt lexeme (isWordLike lexeme) (line.take pos).getLast? (line.drop pos) = true

instance (lexeme line : List Char) (pos : Nat) : Decidable (Stands lexeme line pos) :=
  inferInstanceAs (Decidable (_ = true))

variable {lexeme : List Char} {wholeWord : Bool}

/-- The character before a place, `before` being the one in front of what comes before it. -/
def lastOr (before : Option Char) (cs : List Char) : Option Char :=
  cs.getLast?.or before

theorem lastOr_cons (before : Option Char) (c : Char) (cs : List Char) :
    lastOr before (c :: cs) = lastOr (some c) cs := by
  rw [lastOr, lastOr, List.getLast?_cons]
  cases cs.getLast? <;> rfl

theorem add_length_cons (pos : Nat) (c : Char) (cs : List Char) :
    pos + (c :: cs).length = pos + 1 + cs.length := by
  rw [List.length_cons, Nat.add_comm cs.length, Nat.add_assoc]

/-- A lexeme is found only where it stands, and not in what is passed over. -/
theorem standsAt_of_mem_occurrences {pos skip i : Nat} {before : Option Char} {cs : List Char}
    (h : i ∈ occurrences lexeme wholeWord pos skip before cs) :
    ∃ left right, cs = left ++ right ∧ i = pos + left.length ∧ skip ≤ left.length ∧
      standsAt lexeme wholeWord (lastOr before left) right = true := by
  have hnext {pos skip skip' : Nat} {before : Option Char} {c : Char} {cs : List Char}
      (hskip : skip ≤ skip' + 1)
      (h : ∃ left right, cs = left ++ right ∧ i = pos + 1 + left.length ∧ skip' ≤ left.length ∧
        standsAt lexeme wholeWord (lastOr (some c) left) right = true) :
      ∃ left right, c :: cs = left ++ right ∧ i = pos + left.length ∧ skip ≤ left.length ∧
        standsAt lexeme wholeWord (lastOr before left) right = true := by
    obtain ⟨left, right, rfl, rfl, hle, hstands⟩ := h
    refine ⟨c :: left, right, rfl, ?_, ?_, ?_⟩
    · exact (add_length_cons pos c left).symm
    · rw [List.length_cons]
      omega
    · rwa [lastOr_cons]
  fun_induction occurrences lexeme wholeWord pos skip before cs with
  | case1 => cases h
  | case2 pos skip before c cs ih => exact hnext (Nat.le_refl _) (ih h)
  | case3 pos before c cs hstands ih =>
    rcases List.mem_cons.1 h with rfl | h
    · exact ⟨[], c :: cs, rfl, rfl, Nat.le_refl 0, hstands⟩
    · exact hnext (Nat.zero_le _) (ih h)
  | case4 pos before c cs _ ih => exact hnext (Nat.zero_le _) (ih h)

/-- Where a lexeme stands in `left`, and not in the first `skip` characters, it ends in `left` too,
    `right` being what follows. -/
def Unhidden (lexeme : List Char) (wholeWord : Bool) (skip : Nat) (before : Option Char)
    (left right : List Char) : Prop :=
  ∀ left' mid, left = left' ++ mid → skip ≤ left'.length → mid ≠ [] →
    standsAt lexeme wholeWord (lastOr before left') (mid ++ right) = true →
    lexeme.length ≤ mid.length

theorem Unhidden.tail {skip skip' : Nat} {before : Option Char} {c : Char} {left right : List Char}
    (h : Unhidden lexeme wholeWord skip before (c :: left) right) (hskip : skip ≤ skip' + 1) :
    Unhidden lexeme wholeWord skip' (some c) left right := by
  rintro left' mid rfl hle hmid hstands
  refine h (c :: left') mid rfl (Nat.le_trans hskip (Nat.succ_le_succ hle)) hmid ?_
  rwa [lastOr_cons]

/-- A lexeme is found where it stands, if it stands at no place that overlaps this one from the
    left. -/
theorem mem_occurrences_of_standsAt {pos skip : Nat} {before : Option Char} {cs : List Char}
    {left right : List Char} (hcs : cs = left ++ right) (hright : right ≠ [])
    (hskip : skip ≤ left.length)
    (hstands : standsAt lexeme wholeWord (lastOr before left) right = true)
    (hfree : Unhidden lexeme wholeWord skip before left right) :
    pos + left.length ∈ occurrences lexeme wholeWord pos skip before cs := by
  fun_induction occurrences lexeme wholeWord pos skip before cs generalizing left with
  | case1 =>
    exact absurd (List.append_eq_nil_iff.1 hcs.symm).2 hright
  | case2 pos skip before c cs ih =>
    cases left with
    | nil => cases hskip
    | cons d left =>
      obtain ⟨rfl, rfl⟩ := List.cons.inj hcs
      rw [lastOr_cons] at hstands
      rw [add_length_cons]
      exact ih rfl (Nat.le_of_succ_le_succ hskip) hstands (hfree.tail (Nat.le_refl _))
  | case3 pos before c cs hhere ih =>
    cases left with
    | nil => exact List.mem_cons_self
    | cons d left =>
      obtain ⟨rfl, rfl⟩ := List.cons.inj hcs
      -- What is passed over behind the place found here ends before the other one.
      have hpassed : lexeme.length ≤ (c :: left).length :=
        hfree [] (c :: left) rfl (Nat.zero_le _) (List.cons_ne_nil c left) hhere
      rw [lastOr_cons] at hstands
      rw [add_length_cons]
      exact List.mem_cons_of_mem pos <|
        ih rfl (Nat.sub_le_of_le_add hpassed) hstands (hfree.tail (Nat.zero_le _))
  | case4 pos before c cs hhere ih =>
    cases left with
    | nil =>
      rw [List.nil_append] at hcs
      rw [← hcs] at hstands
      exact absurd hstands hhere
    | cons d left =>
      obtain ⟨rfl, rfl⟩ := List.cons.inj hcs
      rw [lastOr_cons] at hstands
      rw [add_length_cons]
      exact ih rfl (Nat.zero_le _) hstands (hfree.tail (Nat.zero_le _))

variable {line : List Char} {start : Nat} {token : Token}

theorem lastOr_none (cs : List Char) : lastOr none cs = cs.getLast? :=
  Option.or_none

/-- The paint of a token is in its style, and where its source text stands. -/
theorem of_mem_tokenPaint {paint : Paint} (h : paint ∈ tokenPaint line start token) :
    paint.style = groupStyle token.kind.group ∧ start ≤ paint.start ∧
      paint.count = (sourceText token).toList.length ∧
      Stands (sourceText token).toList line paint.start := by
  obtain ⟨i, hi, rfl⟩ := List.mem_map.1 h
  obtain ⟨left, right, rfl, rfl, hskip, hstands⟩ := standsAt_of_mem_occurrences hi
  rw [lastOr_none] at hstands
  refine ⟨rfl, ?_, rfl, ?_⟩
  · rwa [Nat.zero_add]
  · rwa [Stands, Nat.zero_add, List.take_left, List.drop_left]

/-- A token paints the place where its source text stands, if no place that overlaps this one
    from the left is painted instead. -/
theorem mem_tokenPaint {i : Nat} (hi : i < line.length) (hstart : start ≤ i)
    (hstands : Stands (sourceText token).toList line i)
    (hfree : ∀ j, start ≤ j → j < i → Stands (sourceText token).toList line j →
      j + (sourceText token).toList.length ≤ i) :
    ⟨i, (sourceText token).toList.length, groupStyle token.kind.group⟩ ∈
      tokenPaint line start token := by
  have hlength : (line.take i).length = i := List.length_take_of_le (Nat.le_of_lt hi)
  have hmem : 0 + (line.take i).length ∈ occurrences (sourceText token).toList
      (isWordLike (sourceText token).toList) 0 start none line := by
    refine mem_occurrences_of_standsAt (List.take_append_drop i line).symm ?_ ?_ ?_ ?_
    · exact mt List.drop_eq_nil_iff.1 (Nat.not_le.2 hi)
    · rwa [hlength]
    · rwa [lastOr_none]
    · intro left mid heq hskip hmid hthere
      have hpos := List.length_pos_iff.2 hmid
      have hsum : left.length + mid.length = i := by
        rw [← List.length_append, ← heq, hlength]
      have hline : line = left ++ (mid ++ line.drop i) := by
        rw [← List.append_assoc, ← heq, List.take_append_drop]
      have hle := hfree left.length hskip (by omega) (by
        rw [Stands, hline, List.take_left, List.drop_left]
        rwa [lastOr_none] at hthere)
      omega
  rw [hlength, Nat.zero_add] at hmem
  exact List.mem_map.2 ⟨i, hmem, rfl⟩

end MiniPascal.Editor
