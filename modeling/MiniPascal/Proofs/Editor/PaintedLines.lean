import MiniPascal.Proofs.Editor.Coats
import MiniPascal.Proofs.Editor.Comments
import MiniPascal.Proofs.Printing

/-!
# Painting a line, step by step

A line is painted in three loops: one goes from place to place where the source text of a token is
found (`Found`), another from token to token (`Host.TokensPainted`), a third from one block
comment to the next (`BlocksPainted`). How a text is searched for, and how tokens are shown, is
left to a `Host`, of which nothing is known but that what it finds stands where it is found.

Every loop goes on behind what it has painted, and no source text is empty
(`Lexeme.sourceText_ne_nil`), so the painting of a line ends, in one way only, and nothing is
painted beyond the line. What a comment carried over covers is painted once, before all else
(`painting_within_line`).
-/

namespace MiniPascal

open Text Editor

/-! ### Source texts -/

theorem floatText_ne_nil (x : Float) : (Decimal.floatText x).toList ≠ [] := by
  have hpositional (digits : List Char) (place : Int) : Decimal.positional digits place ≠ [] := by
    fun_cases Decimal.positional digits place <;> simp
  have hscientific (digits : List Char) (exponent : Int) :
      Decimal.scientific digits exponent ≠ [] := by
    fun_cases Decimal.scientific digits exponent <;> simp [Decimal.exponentMark]
  have hchars (d : Decimal.Scaled) : d.toChars ≠ [] := by
    rw [Decimal.Scaled.toChars]
    split
    · exact hpositional _ _
    · exact hscientific _ _
  rw [Decimal.floatText]
  split
  · decide
  · split <;> decide
  · simp only [String.toList_ofList]
    split
    · exact List.cons_ne_nil _ _
    · split
      · exact List.cons_ne_nil _ _
      · exact hchars _

/-- No token that is spelled in a text is shown as nothing. -/
theorem Lexeme.sourceText_ne_nil {w rest : List Char} {token : Token} (h : Lexeme w token rest) :
    (sourceText token).toList ≠ [] := by
  cases h with
  | @reserved _ _ kind _ _ hkind _ | @pair kind _ hkind =>
    rw [(sourceText_operator (by simp [hkind])).1]
    exact Kind.text_ne_nil kind
  | @single kind _ hkind | @half kind _ hkind _ =>
    rw [(sourceText_operator (by simp [hkind])).2]
    exact Kind.text_ne_nil kind
  | name hw _ _ =>
    have htext (w : List Char) : (sourceText (.ident (wordLexeme w))).toList = lowercase w :=
      String.toList_ofList
    rw [htext]
    obtain ⟨c, hc, -⟩ := hw.1
    exact lowercase_ne_nil (by rintro rfl; cases hc)
  | num _ _ =>
    rw [toList_sourceText_num]
    exact Nat.toDigits_ne_nil
  | real _ _ _ _ => exact floatText_ne_nil _
  | charConst c => simp [sourceText, Token.charConst]
  | literal => simp [sourceText, Token.literal]
  | lone | symbol => simp [sourceText, Token.symbol, Token.text, Payload.display]

/-- No row of a text is shown as nothing, unless the rows are cut short by an abort. -/
theorem sourceText_ne_nil_of_rows {rest : List Char}
    (habort : (Lexer.ofChars rest).tokenization.abort? = none) :
    ∀ row ∈ (Lexer.ofChars rest).tokenization.rows, (sourceText row.2).toList ≠ [] := by
  have htokens : (Lexer.ofChars rest).tokenization = tokenize (String.ofList rest) := by
    rw [tokenize, Lexer.ofText, String.toList_ofList]
  rw [htokens] at habort ⊢
  have hsplit : ∃ line' rest', Split 1 (String.ofList rest).toList
      (tokenize (String.ofList rest)).rows line' rest' := by
    rcases tokenize_cases ((abort?_tokenize_eq_none_iff _).1 habort) with
      ⟨line', rest', hsplit, -⟩ | ⟨line', rest', _, _, hsplit, -⟩
    · exact ⟨line', rest', hsplit⟩
    · exact ⟨line', rest', hsplit⟩
  obtain ⟨line', rest', hsplit⟩ := hsplit
  intro row hrow
  obtain ⟨_, _, _, _, _, -, -, hlexeme⟩ := hsplit.exists_lexemeAt hrow
  exact hlexeme.sourceText_ne_nil

end MiniPascal

namespace MiniPascal.Editor

/-! ### Characters on a line -/

/-- Where a character stands first on a line, from a position on. -/
def firstFrom (c : Char) (line : List Char) (start : Nat) : Option Nat :=
  ((line.drop start).findIdx? (· = c)).map (start + ·)

variable {line : List Char} {start : Nat}

theorem bounds_of_firstFrom {c : Char} {i : Nat} (h : firstFrom c line start = some i) :
    start ≤ i ∧ i < line.length := by
  obtain ⟨k, hk, rfl⟩ := Option.map_eq_some_iff.1 h
  obtain ⟨hlt, -⟩ := List.findIdx?_eq_some_iff_getElem.1 hk
  rw [List.length_drop] at hlt
  omega

theorem findIdx?_of_not_mem {c : Char} {w : List Char} (hw : c ∉ w) :
    w.findIdx? (· = c) = none :=
  List.findIdx?_eq_none_iff.2 fun _ hd => decide_eq_false (ne_of_mem_of_not_mem hd hw)

theorem firstFrom_of_not_mem {c : Char} {rest : List Char} (hrest : c ∉ rest)
    (before : List Char) : firstFrom c (before ++ rest) before.length = none := by
  rw [firstFrom, List.drop_left, findIdx?_of_not_mem hrest, Option.map_none]

theorem firstFrom_append {c : Char} {w : List Char} (hw : c ∉ w) (before rest : List Char) :
    firstFrom c (before ++ (w ++ c :: rest)) before.length = some (before.length + w.length) := by
  rw [firstFrom, List.drop_left, List.findIdx?_append, findIdx?_of_not_mem hw]
  simp [List.findIdx?_cons]

/-! ### The places of a text -/

/-- The places that a search finds from a position on, each behind the one before it: `next` is
    the first place from a position on, and `count` characters are passed over there. -/
inductive Found (next : Nat → Option Nat) (count : Nat) : Nat → List Nat → Prop
  | nil {start : Nat} : next start = none → Found next count start []
  | cons {start i : Nat} {places : List Nat} : next start = some i →
    Found next count (i + count) places → Found next count start (i :: places)

namespace Found

variable {next : Nat → Option Nat} {count length : Nat} {places places' : List Nat}

theorem unique (h : Found next count start places) (h' : Found next count start places') :
    places = places' := by
  induction h generalizing places' with
  | nil hnone =>
    cases h' with
    | nil => rfl
    | cons hsome => cases hnone.symm.trans hsome
  | cons hsome _ ih =>
    cases h' with
    | nil hnone => cases hnone.symm.trans hsome
    | cons hsome' hrest =>
      obtain rfl := Option.some.inj (hsome.symm.trans hsome')
      rw [ih hrest]

theorem bounds (hnext : ∀ start i, next start = some i → start ≤ i ∧ i + count ≤ length)
    (h : Found next count start places) : ∀ i ∈ places, start ≤ i ∧ i + count ≤ length := by
  induction h with
  | nil => exact List.forall_mem_nil _
  | cons hsome _ ih =>
    have hfirst := hnext _ _ hsome
    refine List.forall_mem_cons.2 ⟨hfirst, fun i hi => ?_⟩
    have := ih i hi
    omega

end Found

/-- A search comes to an end, as there is less of the line left behind every place. -/
theorem exists_found {next : Nat → Option Nat} {count length : Nat}
    (hnext : ∀ start i, next start = some i → start ≤ i ∧ i + count ≤ length)
    (hcount : 0 < count) (start : Nat) : ∃ places, Found next count start places := by
  induction hleft : length - start using Nat.strong_induction_on generalizing start with
  | _ left ih =>
    cases hfound : next start with
    | none => exact ⟨[], .nil hfound⟩
    | some i =>
      have hi := hnext start i hfound
      obtain ⟨places, hplaces⟩ := ih (length - (i + count)) (by omega) (i + count) rfl
      exact ⟨i :: places, .cons hfound hplaces⟩

/-! ### The loops -/

/-- How the source text of a token is looked for on a line, and how tokens are shown. -/
structure Host where
  /-- The first place of a text on a line from a position on, as a whole word or not. -/
  search : List Char → Bool → List Char → Nat → Option Nat
  /-- The style of the tokens of a kind. -/
  style : Kind → Style
  /-- A text is found where it stands. -/
  stands {lexeme line : List Char} {wholeWord : Bool} {start i : Nat} :
    search lexeme wholeWord line start = some i → start ≤ i ∧ lexeme <+: line.drop i

/-- The paint of tokens on a line from a position on. The text of each is looked at for whether it
    is a word, so there is none for an empty text. -/
inductive Host.TokensPainted (host : Host) (line : List Char) (start : Nat) :
    List Token → List Paint → Prop
  | nil : TokensPainted host line start [] []
  | cons {token : Token} {tokens : List Token} {lexeme : List Char} {places : List Nat}
    {paints : List Paint} : (sourceText token).toList = lexeme → lexeme ≠ [] →
    Found (host.search lexeme (isWordLike lexeme) line) lexeme.length start places →
    TokensPainted host line start tokens paints →
    TokensPainted host line start (token :: tokens)
      (places.map (⟨·, lexeme.length, host.style token.kind⟩) ++ paints)

/-- The paint of the line comment on a line from a position on. -/
def lineComment (line : List Char) (start : Nat) : List Paint :=
  match firstFrom '%' line start with
  | none => []
  | some i => [⟨i, line.length - i, commentStyle⟩]

/-- The paint of the block comments on a line from a position on, and whether the last one is left
    open. -/
inductive BlocksPainted (line : List Char) : Nat → List Paint → Bool → Prop
  | nil {start : Nat} : firstFrom '\x7b' line start = none → BlocksPainted line start [] false
  | unclosed {start opened : Nat} : firstFrom '\x7b' line start = some opened →
    firstFrom '\x7d' line (opened + 1) = none →
    BlocksPainted line start [⟨opened, line.length - opened, commentStyle⟩] true
  | closed {start opened closed : Nat} {paints : List Paint} {isOpen : Bool} :
    firstFrom '\x7b' line start = some opened →
    firstFrom '\x7d' line (opened + 1) = some closed →
    BlocksPainted line (closed + 1) paints isOpen →
    BlocksPainted line start (⟨opened, closed + 1 - opened, commentStyle⟩ :: paints) isOpen

/-- The paint of a line from a position on, and whether it leaves a comment open. -/
inductive Host.RestPainted (host : Host) (line : List Char) (start : Nat) :
    List Paint → Bool → Prop
  | mk {tokens blocks : List Paint} {isOpen : Bool} :
    (Lexer.ofChars (line.drop start)).tokenization.abort? = none →
    host.TokensPainted line start
      ((Lexer.ofChars (line.drop start)).tokenization.rows.map Prod.snd) tokens →
    BlocksPainted line start blocks isOpen →
    RestPainted host line start (tokens ++ lineComment line start ++ blocks) isOpen

/-- The paint of a line, and whether it leaves a comment open, if the line before does or does
    not. -/
inductive Host.Painted (host : Host) (line : List Char) : Bool → List Paint → Bool → Prop
  | plain {paints : List Paint} {isOpen : Bool} : host.RestPainted line 0 paints isOpen →
    Painted host line false paints isOpen
  | within : firstFrom '\x7d' line 0 = none →
    Painted host line true [⟨0, line.length, commentStyle⟩] true
  | behind {last : Nat} {paints : List Paint} {isOpen : Bool} :
    firstFrom '\x7d' line 0 = some last → host.RestPainted line (last + 1) paints isOpen →
    Painted host line true (⟨0, last + 1, commentStyle⟩ :: paints) isOpen

/-! ### Each loop ends, within the line -/

/-- A coat lies on a line, from a position on. -/
def Paint.Within (start length : Nat) (paint : Paint) : Prop :=
  start ≤ paint.start ∧ paint.start + paint.count ≤ length

/-- What is found lies on the line. -/
theorem Host.bounds_of_search {host : Host} {lexeme : List Char} {wholeWord : Bool}
    (hne : lexeme ≠ []) (start i : Nat) (h : host.search lexeme wholeWord line start = some i) :
    start ≤ i ∧ i + lexeme.length ≤ line.length := by
  obtain ⟨hle, hprefix⟩ := host.stands h
  have hlength := hprefix.length_le
  have hpos := List.length_pos_iff.2 hne
  rw [List.length_drop] at hlength
  omega

theorem within_lineComment {paint : Paint} (h : paint ∈ lineComment line start) :
    paint.Within start line.length := by
  rw [lineComment] at h
  split at h
  · cases h
  · next i hi =>
    obtain rfl := List.mem_singleton.1 h
    have hbounds := bounds_of_firstFrom hi
    simp only [Paint.Within]
    omega

namespace Host

variable {host : Host} {tokens : List Token} {paints paints' : List Paint} {isOpen isOpen' : Bool}

theorem TokensPainted.unique (h : host.TokensPainted line start tokens paints)
    (h' : host.TokensPainted line start tokens paints') : paints = paints' := by
  induction h generalizing paints' with
  | nil =>
    cases h'
    rfl
  | cons hlexeme _ hfound _ ih =>
    subst hlexeme
    cases h' with
    | cons hlexeme' _ hfound' hrest' =>
      subst hlexeme'
      rw [hfound.unique hfound', ih hrest']

theorem TokensPainted.within (h : host.TokensPainted line start tokens paints) :
    ∀ paint ∈ paints, paint.Within start line.length := by
  induction h with
  | nil => exact List.forall_mem_nil _
  | cons _ hne hfound _ ih =>
    refine List.forall_mem_append.2 ⟨List.forall_mem_map.2 fun i hi => ?_, ih⟩
    exact hfound.bounds (host.bounds_of_search hne) i hi

theorem exists_tokensPainted (host : Host) (line : List Char) (start : Nat)
    (h : ∀ token ∈ tokens, (sourceText token).toList ≠ []) :
    ∃ paints, host.TokensPainted line start tokens paints := by
  induction tokens with
  | nil => exact ⟨[], .nil⟩
  | cons token tokens ih =>
    obtain ⟨hne, hothers⟩ := List.forall_mem_cons.1 h
    obtain ⟨paints, hpaints⟩ := ih hothers
    obtain ⟨places, hplaces⟩ :=
      exists_found (host.bounds_of_search hne) (List.length_pos_iff.2 hne) start
    exact ⟨_, .cons rfl hne hplaces hpaints⟩

end Host

namespace BlocksPainted

variable {paints paints' : List Paint} {isOpen isOpen' : Bool}

theorem unique (h : BlocksPainted line start paints isOpen)
    (h' : BlocksPainted line start paints' isOpen') : paints = paints' ∧ isOpen = isOpen' := by
  induction h generalizing paints' isOpen' with
  | nil hnone =>
    cases h' with
    | nil => exact ⟨rfl, rfl⟩
    | unclosed hopened | closed hopened => cases hnone.symm.trans hopened
  | unclosed hopened hnone =>
    cases h' with
    | nil hnone' => cases hnone'.symm.trans hopened
    | unclosed hopened' =>
      obtain rfl := Option.some.inj (hopened.symm.trans hopened')
      exact ⟨rfl, rfl⟩
    | closed hopened' hclosed =>
      obtain rfl := Option.some.inj (hopened.symm.trans hopened')
      cases hnone.symm.trans hclosed
  | closed hopened hclosed _ ih =>
    cases h' with
    | nil hnone => cases hnone.symm.trans hopened
    | unclosed hopened' hnone =>
      obtain rfl := Option.some.inj (hopened.symm.trans hopened')
      cases hnone.symm.trans hclosed
    | closed hopened' hclosed' hrest' =>
      obtain rfl := Option.some.inj (hopened.symm.trans hopened')
      obtain rfl := Option.some.inj (hclosed.symm.trans hclosed')
      obtain ⟨rfl, rfl⟩ := ih hrest'
      exact ⟨rfl, rfl⟩

theorem within (h : BlocksPainted line start paints isOpen) :
    ∀ paint ∈ paints, paint.Within start line.length := by
  induction h with
  | nil => exact List.forall_mem_nil _
  | unclosed hopened =>
    have hbounds := bounds_of_firstFrom hopened
    refine List.forall_mem_singleton.2 ?_
    simp only [Paint.Within]
    omega
  | closed hopened hclosed _ ih =>
    have hopen := bounds_of_firstFrom hopened
    have hclose := bounds_of_firstFrom hclosed
    refine List.forall_mem_cons.2 ⟨?_, fun paint hpaint => ?_⟩
    · simp only [Paint.Within]
      omega
    · obtain ⟨hstart, hend⟩ := ih paint hpaint
      exact ⟨by omega, hend⟩

end BlocksPainted

/-! ### The painting of the library's editor -/

theorem blockCommentPaint_append {w : List Char} (hw : '\x7b' ∉ w) (pos : Nat) (cs : List Char) :
    blockCommentPaint pos none (w ++ cs) = blockCommentPaint (pos + w.length) none cs := by
  induction w generalizing pos with
  | nil => rfl
  | cons c w ih =>
    obtain ⟨hc, hw⟩ := not_or.1 (mt List.mem_cons.2 hw)
    rw [List.cons_append, blockCommentPaint, if_neg (Ne.symm hc), ih hw, add_length_cons]

theorem blockCommentPaint_append_of_opened {w : List Char} (hw : '\x7d' ∉ w) (pos opened : Nat)
    (cs : List Char) : blockCommentPaint pos (some opened) (w ++ cs) =
      blockCommentPaint (pos + w.length) (some opened) cs := by
  induction w generalizing pos with
  | nil => rfl
  | cons c w ih =>
    obtain ⟨hc, hw⟩ := not_or.1 (mt List.mem_cons.2 hw)
    rw [List.cons_append, blockCommentPaint, if_neg (Ne.symm hc), ih hw, add_length_cons]

/-- One pass over the characters paints the comments that are found brace by brace. -/
theorem blocksPainted_blockCommentPaint (before rest : List Char) :
    BlocksPainted (before ++ rest) before.length (blockCommentPaint before.length none rest).1
      (blockCommentPaint before.length none rest).2 := by
  induction hleft : rest.length using Nat.strong_induction_on generalizing before rest with
  | _ left ih =>
    subst hleft
    obtain ⟨plain, after, rfl, hplain, rfl | ⟨after, rfl⟩⟩ := exists_until '\x7b' rest
    · rw [blockCommentPaint_append hplain, List.append_nil]
      exact .nil (firstFrom_of_not_mem hplain before)
    have hopened : firstFrom '\x7b' (before ++ (plain ++ '\x7b' :: after)) before.length =
        some (before.length + plain.length) := firstFrom_append hplain before after
    rw [blockCommentPaint_append hplain, blockCommentPaint, if_pos rfl]
    -- What is behind the brace is looked at on the same line.
    have hline : before ++ (plain ++ '\x7b' :: after) = before ++ plain ++ ['\x7b'] ++ after := by
      simp
    have hlength : (before ++ plain ++ ['\x7b']).length = before.length + plain.length + 1 := by
      rw [List.length_append, List.length_append, List.length_singleton]
    rw [hline] at hopened ⊢
    rw [← hlength]
    generalize before ++ plain ++ ['\x7b'] = before' at hlength hopened ⊢
    obtain ⟨inside, after', rfl, hinside, rfl | ⟨rest, rfl⟩⟩ := exists_until '\x7d' after
    · have hnone : firstFrom '\x7d' (before' ++ (inside ++ [])) before'.length = none :=
        firstFrom_of_not_mem (by rwa [List.append_nil]) before'
      rw [hlength] at hnone
      rw [blockCommentPaint_append_of_opened hinside, blockCommentPaint]
      have hunclosed := BlocksPainted.unclosed hopened hnone
      rw [List.append_nil, List.length_append] at hunclosed
      rwa [List.append_nil]
    · have hclosed : firstFrom '\x7d' (before' ++ (inside ++ '\x7d' :: rest)) before'.length =
          some (before'.length + inside.length) := firstFrom_append hinside before' rest
      rw [hlength] at hclosed
      have hrest := ih rest.length (by simp; omega) (before' ++ inside ++ ['\x7d']) rest rfl
      rw [blockCommentPaint_append_of_opened hinside, blockCommentPaint, if_pos rfl]
      rw [List.length_append, List.length_append, List.length_singleton, hlength,
        List.append_assoc, List.append_assoc, List.singleton_append] at hrest
      rw [hlength]
      exact .closed hopened hclosed hrest

theorem lineCommentPaint_eq (before rest : List Char) :
    lineCommentPaint before.length rest = lineComment (before ++ rest) before.length := by
  obtain ⟨plain, after, rfl, hplain, rfl | ⟨after, rfl⟩⟩ := exists_until '%' rest
  · have hnone : firstFrom '%' (before ++ (plain ++ [])) before.length = none :=
      firstFrom_of_not_mem (by rwa [List.append_nil]) before
    rw [lineComment, hnone, List.append_nil, lineCommentPaint, (until_end hplain).2]
  · have hsome : firstFrom '%' (before ++ (plain ++ '%' :: after)) before.length =
        some (before.length + plain.length) := firstFrom_append hplain before after
    have hbehind : (plain ++ '%' :: after).length - ('%' :: after).length = plain.length := by
      rw [List.length_append, Nat.add_sub_cancel]
    have hcount : (before ++ (plain ++ '%' :: after)).length - (before.length + plain.length) =
        ('%' :: after).length := by
      rw [List.length_append, List.length_append]
      omega
    rw [lineComment, hsome, lineCommentPaint, (until_append hplain after).2]
    simp only [hbehind, hcount]

variable {lexeme : List Char} {wholeWord : Bool}

/-- The places of a lexeme behind the first one are those that are found from its end on. -/
theorem occurrences_behind (hne : lexeme ≠ []) {pos skip i : Nat} {before : Option Char}
    {cs : List Char} {places : List Nat}
    (h : occurrences lexeme wholeWord pos skip before cs = i :: places) :
    occurrences lexeme wholeWord pos (i - pos + lexeme.length) before cs = places := by
  have hpos := List.length_pos_iff.2 hne
  have hnext {pos skip : Nat} {before : Option Char} {c : Char} {cs : List Char}
      (h : occurrences lexeme wholeWord (pos + 1) skip (some c) cs = i :: places)
      (ih : occurrences lexeme wholeWord (pos + 1) (i - (pos + 1) + lexeme.length) (some c) cs =
        places) :
      occurrences lexeme wholeWord pos (i - pos + lexeme.length) before (c :: cs) = places := by
    obtain ⟨left, _, -, rfl, -⟩ := standsAt_of_mem_occurrences (h ▸ List.mem_cons_self)
    rw [show pos + 1 + left.length - pos + lexeme.length =
      pos + 1 + left.length - (pos + 1) + lexeme.length + 1 by omega, occurrences, ih]
  fun_induction occurrences lexeme wholeWord pos skip before cs with
  | case1 => cases h
  | case2 pos skip before c cs ih => exact hnext h (ih h)
  | case3 pos before c cs _ _ =>
    obtain ⟨rfl, hplaces⟩ := List.cons.inj h
    rw [Nat.sub_self, show 0 + lexeme.length = lexeme.length - 1 + 1 by omega, occurrences,
      hplaces]
  | case4 pos before c cs _ ih => exact hnext h (ih h)

/-- How the library's editor looks for a text, and shows tokens. -/
def editorHost : Host where
  search lexeme wholeWord line start := (occurrences lexeme wholeWord 0 start none line).head?
  style kind := groupStyle kind.group
  stands h := by
    obtain ⟨left, right, rfl, rfl, hle, hstands⟩ :=
      standsAt_of_mem_occurrences (List.mem_of_head? h)
    rw [standsAt, Bool.and_eq_true, List.isPrefixOf_iff_prefix] at hstands
    rw [Nat.zero_add, List.drop_left]
    exact ⟨hle, hstands.1⟩

/-- The editor finds a lexeme place by place. -/
theorem found_occurrences (hne : lexeme ≠ []) (line : List Char) (start : Nat) :
    Found (editorHost.search lexeme wholeWord line) lexeme.length start
      (occurrences lexeme wholeWord 0 start none line) := by
  generalize hplaces : occurrences lexeme wholeWord 0 start none line = places
  induction places generalizing start with
  | nil =>
    refine .nil ?_
    rw [editorHost]
    simp only [hplaces, List.head?_nil]
  | cons i places ih =>
    refine .cons ?_ (ih (i + lexeme.length) (by simpa using occurrences_behind hne hplaces))
    rw [editorHost]
    simp only [hplaces, List.head?_cons]

theorem tokensPainted_tokenPaints {rows : List (Nat × Token)}
    (h : ∀ row ∈ rows, (sourceText row.2).toList ≠ []) :
    editorHost.TokensPainted line start (rows.map Prod.snd) (tokenPaints line start rows) := by
  induction rows with
  | nil => exact .nil
  | cons row rows ih =>
    obtain ⟨hne, hothers⟩ := List.forall_mem_cons.1 h
    exact .cons rfl hne (found_occurrences hne line start) (ih hothers)

/-! ### Lines -/

/-- Where the rest of a line begins that no comment carried over covers, if there is one. -/
def restStart (inComment : Bool) (line : List Char) : Option Nat :=
  if inComment then (firstFrom '\x7d' line 0).map (· + 1) else some 0

theorem le_of_mem_restStart {inComment : Bool} (h : start ∈ restStart inComment line) :
    start ≤ line.length := by
  rw [restStart] at h
  split at h
  · obtain ⟨last, hlast, rfl⟩ := Option.map_eq_some_iff.1 h
    exact (bounds_of_firstFrom hlast).2
  · obtain rfl := Option.some.inj h
    exact Nat.zero_le _

variable {host : Host} {paints paints' : List Paint} {isOpen isOpen' inComment : Bool}

namespace Host

theorem RestPainted.abort (h : host.RestPainted line start paints isOpen) :
    (Lexer.ofChars (line.drop start)).tokenization.abort? = none := by
  obtain ⟨habort, -, -⟩ := h
  exact habort

theorem RestPainted.unique (h : host.RestPainted line start paints isOpen)
    (h' : host.RestPainted line start paints' isOpen') : paints = paints' ∧ isOpen = isOpen' := by
  obtain ⟨-, htokens, hblocks⟩ := h
  obtain ⟨-, htokens', hblocks'⟩ := h'
  obtain ⟨rfl, rfl⟩ := hblocks.unique hblocks'
  exact ⟨by rw [htokens.unique htokens'], rfl⟩

theorem RestPainted.within (h : host.RestPainted line start paints isOpen) :
    ∀ paint ∈ paints, paint.Within start line.length := by
  obtain ⟨-, htokens, hblocks⟩ := h
  refine List.forall_mem_append.2 ⟨List.forall_mem_append.2 ⟨htokens.within, ?_⟩, hblocks.within⟩
  exact fun _ => within_lineComment

theorem exists_restPainted (host : Host) (hstart : start ≤ line.length)
    (habort : (Lexer.ofChars (line.drop start)).tokenization.abort? = none) :
    ∃ paints isOpen, host.RestPainted line start paints isOpen := by
  obtain ⟨tokens, htokens⟩ := host.exists_tokensPainted line start
    (List.forall_mem_map.2 (sourceText_ne_nil_of_rows habort))
  have hblocks := blocksPainted_blockCommentPaint (line.take start) (line.drop start)
  rw [List.take_append_drop, List.length_take_of_le hstart] at hblocks
  exact ⟨_, _, .mk habort htokens hblocks⟩

theorem Painted.unique (h : host.Painted line inComment paints isOpen)
    (h' : host.Painted line inComment paints' isOpen') : paints = paints' ∧ isOpen = isOpen' := by
  cases h with
  | plain hrest =>
    cases h' with
    | plain hrest' => exact hrest.unique hrest'
  | within hnone =>
    cases h' with
    | within => exact ⟨rfl, rfl⟩
    | behind hlast => cases hnone.symm.trans hlast
  | behind hlast hrest =>
    cases h' with
    | within hnone => cases hnone.symm.trans hlast
    | behind hlast' hrest' =>
      obtain rfl := Option.some.inj (hlast.symm.trans hlast')
      obtain ⟨rfl, rfl⟩ := hrest.unique hrest'
      exact ⟨rfl, rfl⟩

end Host

/-- The rest of a line is painted as the loops do. -/
theorem restPainted_editorHost_iff (hstart : start ≤ line.length) :
    editorHost.RestPainted line start paints isOpen ↔
      restPaint line start = .ok (paints, isOpen) := by
  have hpainted (habort : (Lexer.ofChars (line.drop start)).tokenization.abort? = none) :
      editorHost.RestPainted line start
        (tokenPaints line start (Lexer.ofChars (line.drop start)).tokenization.rows ++
          lineCommentPaint start (line.drop start) ++
            (blockCommentPaint start none (line.drop start)).1)
        (blockCommentPaint start none (line.drop start)).2 := by
    have hblocks := blocksPainted_blockCommentPaint (line.take start) (line.drop start)
    have hcomment := lineCommentPaint_eq (line.take start) (line.drop start)
    rw [List.take_append_drop, List.length_take_of_le hstart] at hblocks hcomment
    rw [hcomment]
    exact .mk habort (tokensPainted_tokenPaints (sourceText_ne_nil_of_rows habort)) hblocks
  rw [restPaint_eq_ok_iff]
  constructor
  · intro h
    obtain ⟨rfl, rfl⟩ := h.unique (hpainted h.abort)
    exact ⟨h.abort, rfl⟩
  · rintro ⟨habort, hresult⟩
    obtain ⟨rfl, rfl⟩ := Prod.mk.inj hresult
    exact hpainted habort

/-- A line is painted as the loops do. -/
theorem painted_editorHost_iff : editorHost.Painted line inComment paints isOpen ↔
    linePaint inComment line = .ok (paints, isOpen) := by
  cases inComment with
  | false =>
    rw [linePaint, if_neg Bool.false_ne_true, ← restPainted_editorHost_iff (Nat.zero_le _)]
    refine ⟨fun h => ?_, .plain⟩
    cases h with
    | plain hrest => exact hrest
  | true =>
    obtain ⟨carried, rest, rfl, hcarried, rfl | ⟨rest, rfl⟩⟩ := exists_until '\x7d' line
    · rw [List.append_nil, linePaint_of_open hcarried]
      have hnone : firstFrom '\x7d' carried 0 = none :=
        firstFrom_of_not_mem hcarried []
      constructor
      · intro h
        obtain ⟨rfl, rfl⟩ := h.unique (.within hnone)
        rfl
      · rintro ⟨⟩
        exact .within hnone
    · have hlast : firstFrom '\x7d' (carried ++ '\x7d' :: rest) 0 = some carried.length := by
        simpa using firstFrom_append hcarried [] rest
      have hlength : (carried ++ ['\x7d']).length = carried.length + 1 := List.length_append
      have hle : carried.length + 1 ≤ (carried ++ '\x7d' :: rest).length := by simp
      have hline := linePaint_of_closed hcarried rest
      rw [hlength, ← List.append_cons] at hline
      rw [hline]
      constructor
      · intro h
        cases h with
        | within hnone => cases hnone.symm.trans hlast
        | behind hlast' hrest =>
          obtain rfl := Option.some.inj (hlast.symm.trans hlast')
          rw [(restPainted_editorHost_iff hle).1 hrest]
          rfl
      · intro h
        cases hrest : restPaint (carried ++ '\x7d' :: rest) (carried.length + 1) with
        | error abort =>
          rw [hrest] at h
          cases h
        | ok result =>
          rw [hrest] at h
          obtain ⟨rfl, rfl⟩ := Prod.mk.inj (Except.ok.inj h)
          exact .behind hlast ((restPainted_editorHost_iff hle).2 hrest)

/-- The comment that is carried over to a line is painted first, up to its closing brace, and
    nothing is painted there again; or else it is all that is painted. -/
structure CarriedFirst (line : List Char) (paints : List Paint) : Prop where
  whole : firstFrom '\x7d' line 0 = none → paints = [⟨0, line.length, commentStyle⟩]
  closed : ∀ last, firstFrom '\x7d' line 0 = some last →
    ∃ later, paints = ⟨0, last + 1, commentStyle⟩ :: later ∧ ∀ paint ∈ later, last < paint.start

theorem Host.Painted.ends_on_line (h : host.Painted line inComment paints isOpen) :
    ∀ paint ∈ paints, paint.start + paint.count ≤ line.length := by
  cases h with
  | plain hrest => exact fun paint hpaint => (hrest.within paint hpaint).2
  | within => exact List.forall_mem_singleton.2 (Nat.zero_add _).le
  | behind hlast hrest =>
    refine List.forall_mem_cons.2 ⟨?_, fun paint hpaint => (hrest.within paint hpaint).2⟩
    exact (Nat.zero_add _).trans_le (bounds_of_firstFrom hlast).2

theorem Host.Painted.carriedFirst (h : host.Painted line true paints isOpen) :
    CarriedFirst line paints := by
  cases h with
  | within hnone =>
    refine ⟨fun _ => rfl, fun last hlast => ?_⟩
    cases hnone.symm.trans hlast
  | @behind last paints _ hlast hrest =>
    refine ⟨fun hnone => ?_, fun last' hlast' => ?_⟩
    · cases hnone.symm.trans hlast
    · obtain rfl := Option.some.inj (hlast.symm.trans hlast')
      exact ⟨paints, rfl, fun paint hpaint => (hrest.within paint hpaint).1⟩

/-- A line can be painted unless the tokens of its rest are aborted. -/
theorem Host.exists_painted (host : Host) (habort : ∀ start ∈ restStart inComment line,
      (Lexer.ofChars (line.drop start)).tokenization.abort? = none) :
    ∃ paints isOpen, host.Painted line inComment paints isOpen := by
  have hrest : ∀ start ∈ restStart inComment line, ∃ paints isOpen,
      host.RestPainted line start paints isOpen := fun start hstart =>
    host.exists_restPainted (le_of_mem_restStart hstart) (habort start hstart)
  cases inComment with
  | false =>
    obtain ⟨paints, isOpen, hpainted⟩ := hrest 0 rfl
    exact ⟨paints, isOpen, .plain hpainted⟩
  | true =>
    cases hfirst : firstFrom '\x7d' line 0 with
    | none => exact ⟨_, _, .within hfirst⟩
    | some last =>
      have hstart : last + 1 ∈ restStart true line := by
        rw [restStart, if_pos rfl, hfirst]
        rfl
      obtain ⟨paints, isOpen, hpainted⟩ := hrest (last + 1) hstart
      exact ⟨_, _, .behind hfirst hpainted⟩

/-- Whatever a line is, whether a comment is carried over to it or not, and whatever the host:
    unless the tokens of its rest are aborted, its painting ends, and in one way only. No source
    text is empty, and nothing is painted beyond the line. A comment carried over is painted first
    and up to its closing brace, or it is all that is painted; nothing else touches what it covers.
    The library's editor paints just so. -/
theorem painting_within_line (host : Host) (inComment : Bool) (line : List Char)
    (habort : ∀ start ∈ restStart inComment line,
      (Lexer.ofChars (line.drop start)).tokenization.abort? = none) :
    ∃ paints isOpen,
      (∀ paints' isOpen', host.Painted line inComment paints' isOpen' ↔
        paints' = paints ∧ isOpen' = isOpen) ∧
      (∀ start ∈ restStart inComment line,
        ∀ row ∈ (Lexer.ofChars (line.drop start)).tokenization.rows,
          (sourceText row.2).toList ≠ []) ∧
      (∀ paint ∈ paints, paint.start + paint.count ≤ line.length) ∧
      (inComment = true → CarriedFirst line paints) ∧
      (host = editorHost → linePaint inComment line = .ok (paints, isOpen)) := by
  obtain ⟨paints, isOpen, hpainted⟩ := host.exists_painted habort
  refine ⟨paints, isOpen, fun paints' isOpen' => ⟨fun h => h.unique hpainted, ?_⟩,
    fun start hstart => sourceText_ne_nil_of_rows (habort start hstart), hpainted.ends_on_line,
    ?_, ?_⟩
  · rintro ⟨rfl, rfl⟩
    exact hpainted
  · rintro rfl
    exact hpainted.carriedFirst
  · rintro rfl
    exact painted_editorHost_iff.1 hpainted

/-- A comment is closed, and another one is opened behind a word that stands in both of them and in
    a line comment as well: the word is found everywhere but in the first. -/
theorem painting_within_line_carried :
    (∀ start ∈ restStart true "x\x7dx %x \x7bx".toList,
      (Lexer.ofChars ("x\x7dx %x \x7bx".toList.drop start)).tokenization.abort? = none) ∧
    ∀ paints isOpen, editorHost.Painted "x\x7dx %x \x7bx".toList true paints isOpen ↔
      paints = [⟨0, 2, commentStyle⟩, ⟨2, 1, groupStyle .identifier⟩,
        ⟨5, 1, groupStyle .identifier⟩, ⟨8, 1, groupStyle .identifier⟩, ⟨4, 5, commentStyle⟩,
        ⟨7, 2, commentStyle⟩] ∧
        isOpen = true := by
  have habort : ∀ start ∈ restStart true "x\x7dx %x \x7bx".toList,
      (Lexer.ofChars ("x\x7dx %x \x7bx".toList.drop start)).tokenization.abort? = none := by
    decide +kernel
  have hline : linePaint true "x\x7dx %x \x7bx".toList = .ok
      ([⟨0, 2, commentStyle⟩, ⟨2, 1, groupStyle .identifier⟩, ⟨5, 1, groupStyle .identifier⟩,
        ⟨8, 1, groupStyle .identifier⟩, ⟨4, 5, commentStyle⟩, ⟨7, 2, commentStyle⟩], true) := by
    decide +kernel
  obtain ⟨paints, isOpen, hpainted, -, -, -, heditor⟩ :=
    painting_within_line editorHost true _ habort
  rw [hline] at heditor
  obtain ⟨rfl, rfl⟩ := Prod.mk.inj (Except.ok.inj (heditor rfl))
  exact ⟨habort, hpainted⟩

end MiniPascal.Editor
