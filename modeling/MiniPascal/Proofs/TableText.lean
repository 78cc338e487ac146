import MiniPascal.Proofs.Legibility

/-!
# Tables read back

The columns of a symbol table are padded, but neither cut nor set apart from each other, so a long
name runs into the type behind it, and the name of a scope into the level. Still no two lists of
entries have the same text (`table_text_lossless`), as can be seen cell by cell. The blank behind
the type ends the text of name and type together, of which the type is the end, as no type ends
with another one. The text of scope and level ends with a blank as well. How many blanks there are
before the line tells how long the level is, which is never as wide as its column.
-/

namespace MiniPascal

open SymbolTable

/-! ### Cells -/

/-- A text padded with blanks to the width of its column. -/
def cell (width : Nat) (text : List Char) : List Char :=
  text ++ List.replicate (width - text.length) ' '

theorem toList_column (width : Nat) (text : String) :
    (Text.column width text).toList = cell width text.toList := by
  rw [Text.column, String.toList_append, String.toList_ofList, ← String.length_toList, cell]

variable {u u' v v' s s' : List Char} {width : Nat}

theorem cell_of_le (h : width ≤ u.length) : cell width u = u := by
  rw [cell, Nat.sub_eq_zero_of_le h, List.replicate_zero, List.append_nil]

theorem cell_of_lt (h : u.length < width) :
    cell width u = u ++ ' ' :: List.replicate (width - u.length - 1) ' ' := by
  rw [cell, ← List.replicate_succ, Nat.sub_add_cancel (Nat.sub_pos_of_lt h)]

/-- What stands before the first character of some kind, and what stands after it. -/
theorem eq_of_append_cons {c : Char} (hu : c ∉ u) (hu' : c ∉ u')
    (h : u ++ c :: s = u' ++ c :: s') : u = u' ∧ s = s' := by
  obtain ⟨htake, hdrop⟩ := until_append hu s
  obtain ⟨htake', hdrop'⟩ := until_append hu' s'
  rw [h, htake'] at htake
  rw [h, hdrop'] at hdrop
  exact ⟨htake.symm, (List.cons.inj hdrop).2.symm⟩

/-- A cell and a text behind it that ends with a blank, neither of them with blanks inside: what
    they are together is known, as either the cell is padded or its text is as wide as the column,
    and so is what comes after them. -/
theorem cell_append_inj (hu : ' ' ∉ u) (hv : ' ' ∉ v) (hu' : ' ' ∉ u') (hv' : ' ' ∉ v')
    (h : cell width u ++ (v ++ ' ' :: s) = cell width u' ++ (v' ++ ' ' :: s')) :
    u ++ v = u' ++ v' ∧ s = s' := by
  have huv : ' ' ∉ u ++ v := by simp [hu, hv]
  have huv' : ' ' ∉ u' ++ v' := by simp [hu', hv']
  rcases Nat.lt_or_ge u.length width with hlt | hle <;>
    rcases Nat.lt_or_ge u'.length width with hlt' | hle'
  · rw [cell_of_lt hlt, cell_of_lt hlt', List.append_assoc, List.append_assoc, List.cons_append,
      List.cons_append] at h
    obtain ⟨rfl, h⟩ := eq_of_append_cons hu hu' h
    obtain ⟨rfl, rfl⟩ := eq_of_append_cons hv hv' (List.append_cancel_left h)
    exact ⟨rfl, rfl⟩
  · rw [cell_of_lt hlt, cell_of_le hle', List.append_assoc, List.cons_append,
      ← List.append_assoc u'] at h
    obtain ⟨rfl, -⟩ := eq_of_append_cons hu huv' h
    rw [List.length_append] at hlt
    omega
  · rw [cell_of_le hle, cell_of_lt hlt', List.append_assoc u', List.cons_append,
      ← List.append_assoc u] at h
    obtain ⟨rfl, -⟩ := eq_of_append_cons huv hu' h
    rw [List.length_append] at hlt'
    omega
  · rw [cell_of_le hle, cell_of_le hle', ← List.append_assoc, ← List.append_assoc] at h
    exact eq_of_append_cons huv huv' h

/-- Blanks before what begins with something else can be counted. -/
theorem replicate_append_inj {m n : Nat} (hs : NotNext (· = ' ') s) (hs' : NotNext (· = ' ') s')
    (h : List.replicate m ' ' ++ s = List.replicate n ' ' ++ s') : m = n ∧ s = s' := by
  have hblanks (k : Nat) : ∀ c ∈ List.replicate k ' ', decide (c = ' ') = true := fun c hc =>
    decide_eq_true (List.eq_of_mem_replicate hc)
  obtain ⟨htake, hdrop⟩ := run_append (hblanks m) hs
  obtain ⟨htake', hdrop'⟩ := run_append (hblanks n) hs'
  rw [h, htake'] at htake
  rw [h, hdrop'] at hdrop
  have hlength := congrArg List.length htake
  rw [List.length_replicate, List.length_replicate] at hlength
  exact ⟨hlength.symm, hdrop.symm⟩

/-! ### What stands in the cells -/

/-- The type at the end of a text is known, as no type ends with another one. -/
theorem append_tyName_inj {ty ty' : Ty}
    (h : u ++ ty.name.toList = u' ++ ty'.name.toList) : u = u' ∧ ty = ty' := by
  have hend (u : List Char) (ty : Ty) : (u ++ ty.name.toList).reverse.take 2 =
      ty.name.toList.reverse.take 2 := by
    rw [List.reverse_append, List.take_append_of_le_length]
    cases ty <;> decide
  have hall : ∀ ty ∈ Ty.all, ∀ ty' ∈ Ty.all,
      ty.name.toList.reverse.take 2 = ty'.name.toList.reverse.take 2 → ty = ty' := by
    decide
  have hmem (ty : Ty) : ty ∈ Ty.all := by
    cases ty <;> decide
  obtain rfl : ty = ty' := hall ty (hmem ty) ty' (hmem ty') (by rw [← hend u, h, hend u'])
  exact ⟨List.append_cancel_right h, rfl⟩

theorem tyName_fits (ty : Ty) : ty.name.toList.length < 10 ∧ ' ' ∉ ty.name.toList := by
  cases ty <;> decide

theorem not_mem_toDigits {c : Char} (hc : c.isDigit = false) (n : Nat) :
    c ∉ Nat.toDigits 10 n := by
  intro hmem
  rw [Nat.isDigit_of_mem_toDigits (by decide) (by decide) hmem] at hc
  cases hc

/-- The line of an entry as it stands in the last column. -/
def lineCell (line : Option Int) : String :=
  match line with
  | none => "-"
  | some line => toString line

theorem toList_lineCell_none : (lineCell none).toList = ['-'] := rfl

theorem toList_lineCell_ofNat (n : Nat) : (lineCell (some (.ofNat n))).toList = Nat.toDigits 10 n :=
  Nat.toList_repr

theorem toList_lineCell_negSucc (n : Nat) :
    (lineCell (some (.negSucc n))).toList = '-' :: Nat.toDigits 10 (n + 1) := by
  have hline : lineCell (some (.negSucc n)) = "-" ++ (n + 1).repr := rfl
  rw [hline, String.toList_append, Nat.toList_repr]
  rfl

/-- A line is written in digits, with a minus sign at most. -/
theorem lineCell_spec (line : Option Int) : (lineCell line).toList ≠ [] ∧
    ∀ c ∈ (lineCell line).toList, c.isDigit = true ∨ c = '-' := by
  have hdigits {n : Nat} {c : Char} (hc : c ∈ Nat.toDigits 10 n) : c.isDigit = true ∨ c = '-' :=
    .inl (Nat.isDigit_of_mem_toDigits (by decide) (by decide) hc)
  match line with
  | none =>
    rw [toList_lineCell_none]
    exact ⟨List.cons_ne_nil _ _, List.forall_mem_singleton.2 (.inr rfl)⟩
  | some (.ofNat n) =>
    rw [toList_lineCell_ofNat]
    exact ⟨Nat.toDigits_ne_nil, fun _ => hdigits⟩
  | some (.negSucc n) =>
    rw [toList_lineCell_negSucc]
    exact ⟨List.cons_ne_nil _ _, List.forall_mem_cons.2 ⟨.inr rfl, fun _ => hdigits⟩⟩

theorem newline_notMem_lineCell (line : Option Int) : '\n' ∉ (lineCell line).toList := by
  intro hmem
  rcases (lineCell_spec line).2 _ hmem with hdigit | hminus
  · exact absurd hdigit (by decide)
  · exact absurd hminus (by decide)

theorem notNext_lineCell (line : Option Int) (s : List Char) :
    NotNext (· = ' ') ((lineCell line).toList ++ s) := by
  obtain ⟨hne, hchars⟩ := lineCell_spec line
  obtain ⟨c, cs, hcs⟩ := List.exists_cons_of_ne_nil hne
  rw [hcs] at hchars ⊢
  refine notNext_cons c (cs ++ s) (decide_eq_false ?_)
  rintro rfl
  exact absurd (hchars ' ' List.mem_cons_self) (by decide)

theorem toDigits_injective : Function.Injective (Nat.toDigits 10) :=
  fun m n h => by
    rw [← @Nat.ofDigitChars_ten_toDigits m, h, Nat.ofDigitChars_ten_toDigits]

/-- No two lines are written alike, and none is written as the lack of one is. -/
theorem lineCell_injective : Function.Injective lineCell := by
  have hminus (n : Nat) : '-' ∉ Nat.toDigits 10 n := not_mem_toDigits (by decide) n
  intro line line' h
  have hlist := congrArg String.toList h
  match line, line' with
  | none, none => rfl
  | some (.ofNat m), some (.ofNat n) =>
    rw [toList_lineCell_ofNat, toList_lineCell_ofNat] at hlist
    rw [toDigits_injective hlist]
  | some (.negSucc m), some (.negSucc n) =>
    rw [toList_lineCell_negSucc, toList_lineCell_negSucc] at hlist
    rw [Nat.succ.inj (toDigits_injective (List.cons.inj hlist).2)]
  | some (.ofNat m), none | some (.ofNat m), some (.negSucc n) =>
    rw [toList_lineCell_ofNat] at hlist
    refine absurd ?_ (hminus m)
    simp [hlist, toList_lineCell_none, toList_lineCell_negSucc]
  | none, some (.ofNat n) | some (.negSucc m), some (.ofNat n) =>
    rw [toList_lineCell_ofNat] at hlist
    refine absurd ?_ (hminus n)
    simp [← hlist, toList_lineCell_none, toList_lineCell_negSucc]
  | some (.negSucc m), none =>
    rw [toList_lineCell_negSucc, toList_lineCell_none] at hlist
    exact absurd (List.cons.inj hlist).2 Nat.toDigits_ne_nil
  | none, some (.negSucc n) =>
    rw [toList_lineCell_negSucc, toList_lineCell_none] at hlist
    exact absurd (List.cons.inj hlist).2.symm Nat.toDigits_ne_nil

/-! ### Rows -/

/-- The row of an entry, cell by cell. -/
theorem toList_formatEntry (entry : Entry) : (formatEntry entry).toList =
    cell 20 entry.name.toList ++ (cell 10 entry.ty.name.toList ++
      (cell 18 entry.scope.toList ++ (cell 8 (Nat.toDigits 10 entry.level) ++
        ((lineCell entry.line).toList ++ ['\n'])))) := by
  have hrow : formatEntry entry = Text.column 20 entry.name ++ (Text.column 10 entry.ty.name ++
      (Text.column 18 entry.scope ++ (Text.column 8 entry.level.repr ++
        (lineCell entry.line ++ "\n")))) := by
    cases entry
    rfl
  rw [hrow]
  simp only [String.toList_append, toList_column, Nat.toList_repr]
  rfl

variable {entry entry' : Entry}

theorem Legible.blank_notMem_name (h : Legible entry) : ' ' ∉ entry.name.toList :=
  fun hmem => absurd (h.name ' ' hmem) (by decide)

/-- The hints of a program have no blanks in them, and no more have numbers. -/
theorem Legible.blank_notMem_scope (h : Legible entry) : ' ' ∉ entry.scope.toList := by
  obtain ⟨⟨scopes, entries, counter⟩, hint, hhint, hscope⟩ := h.scope
  have hstem : ' ' ∉ (stem (some hint)).toList := by
    rcases hhint with rfl | ⟨kind, rfl⟩
    · decide
    · cases kind <;> decide
  cases scopes with
  | nil =>
    have hname : entry.scope = "global" := (Except.ok.inj hscope).symm
    rw [hname]
    decide
  | cons scope outer =>
    have hname : entry.scope = innerName (some hint) (counter + 1) := (Except.ok.inj hscope).symm
    rw [hname, toList_innerName]
    simp [hstem, not_mem_toDigits]

/-- Rows that begin two texts alike are of the same entry. -/
theorem formatEntry_append_inj (h : Legible entry) (h' : Legible entry')
    (heq : (formatEntry entry).toList ++ s = (formatEntry entry').toList ++ s') :
    entry = entry' ∧ s = s' := by
  have hlevel (n : Nat) : ' ' ∉ Nat.toDigits 10 n := not_mem_toDigits (by decide) n
  have hwidth {n : Nat} (hn : n < 10 ^ 7) : (Nat.toDigits 10 n).length ≤ 7 :=
    Nat.toDigits_length 10 n 7 (by decide) hn
  have hlength := hwidth h.level
  have hlength' := hwidth h'.level
  obtain ⟨hshort, hty⟩ := tyName_fits entry.ty
  obtain ⟨hshort', hty'⟩ := tyName_fits entry'.ty
  rw [toList_formatEntry, toList_formatEntry, cell_of_lt hshort, cell_of_lt hshort',
    cell_of_lt (Nat.lt_succ_of_le hlength), cell_of_lt (Nat.lt_succ_of_le hlength')] at heq
  simp only [List.append_assoc, List.cons_append, List.nil_append] at heq
  obtain ⟨hnames, heq⟩ :=
    cell_append_inj h.blank_notMem_name hty h'.blank_notMem_name hty' heq
  obtain ⟨hname, htype⟩ := append_tyName_inj hnames
  rw [htype] at heq
  obtain ⟨hscopes, heq⟩ := cell_append_inj h.blank_notMem_scope (hlevel _) h'.blank_notMem_scope
    (hlevel _) (List.append_cancel_left heq)
  -- The level is as long as there are blanks missing behind it.
  obtain ⟨hblanks, heq⟩ := replicate_append_inj (notNext_lineCell _ _) (notNext_lineCell _ _) heq
  obtain ⟨hscope, hlevels⟩ := List.append_inj' hscopes (by omega)
  obtain ⟨hline, hrest⟩ := eq_of_append_cons (newline_notMem_lineCell _)
    (newline_notMem_lineCell _) heq
  refine ⟨?_, hrest⟩
  have hentry : (entry.name, entry.ty, entry.scope, entry.level, entry.line) =
      (entry'.name, entry'.ty, entry'.scope, entry'.level, entry'.line) := by
    rw [String.toList_injective hname, htype, String.toList_injective hscope,
      toDigits_injective hlevels, lineCell_injective (String.toList_injective hline)]
  cases entry
  cases entry'
  cases hentry
  rfl

/-! ### Texts -/

theorem formatEntry_ne_nil (entry : Entry) : (formatEntry entry).toList ≠ [] := by
  simp [toList_formatEntry]

/-- Rows that make up the same text are of the same entries. -/
theorem rows_injective {entries entries' : List Entry} (h : ∀ entry ∈ entries, Legible entry)
    (h' : ∀ entry ∈ entries', Legible entry)
    (heq : entries.flatMap (fun entry => (formatEntry entry).toList) =
      entries'.flatMap fun entry => (formatEntry entry).toList) : entries = entries' := by
  induction entries generalizing entries' with
  | nil =>
    cases entries' with
    | nil => rfl
    | cons entry' entries' =>
      exact absurd (List.append_eq_nil_iff.1 heq.symm).1 (formatEntry_ne_nil entry')
  | cons entry entries ih =>
    cases entries' with
    | nil => exact absurd (List.append_eq_nil_iff.1 heq).1 (formatEntry_ne_nil entry)
    | cons entry' entries' =>
      obtain ⟨hfirst, hothers⟩ := List.forall_mem_cons.1 h
      obtain ⟨hfirst', hothers'⟩ := List.forall_mem_cons.1 h'
      obtain ⟨rfl, hrest⟩ := formatEntry_append_inj hfirst hfirst' heq
      rw [ih hothers hothers' hrest]

/-- What the text of a table with entries begins with. -/
def tableHeader : String :=
  Text.row formatWidths ["Name", "Type", "Scope", "Level", "Line"] ++ Text.rule 64

theorem toList_format_of_ne {table : SymbolTable} (h : table.entries ≠ #[]) :
    table.format.toList = tableHeader.toList ++
      table.entries.toList.flatMap fun entry => (formatEntry entry).toList := by
  have hempty : table.entries.isEmpty = false := by
    simpa [Array.isEmpty_eq_false_iff] using h
  rw [format, hempty, if_neg Bool.false_ne_true, ← tableHeader, String.toList_append,
    String.toList_join, List.flatMap_map]

theorem format_of_eq {table : SymbolTable} (h : table.entries = #[]) :
    table.format = "Empty symbol table." := by
  rw [format, h]
  rfl

/-- A table without entries is not written like one with some. -/
theorem format_ne_of_ne {table : SymbolTable} (h : table.entries ≠ #[]) :
    table.format ≠ "Empty symbol table." := by
  intro hformat
  have hheader : tableHeader.toList.head? = some 'N' := by
    decide +kernel
  have hhead := congrArg (fun text => text.toList.head?) hformat
  simp only [toList_format_of_ne h, List.head?_append, hheader, Option.some_or] at hhead
  exact absurd hhead (by decide)

/-- No two lists of legible entries have the same text, be the cells of a row apart or not. The
    table of a text that is accepted has such entries. -/
theorem table_text_lossless :
    (∀ table table' : SymbolTable, (∀ entry ∈ table.entries, Legible entry) →
      (∀ entry ∈ table'.entries, Legible entry) → table.format = table'.format →
        table.entries = table'.entries) ∧
    ∀ (text : String) (table : SymbolTable), (compile text).outcome = .ok (.accepted table) →
      ∀ entry ∈ table.entries, Legible entry := by
  refine ⟨fun table table' h h' hformat => ?_, fun text table htable _ hentry =>
    legible_of_accepted htable hentry⟩
  rcases eq_or_ne table.entries #[] with hempty | hne <;>
    rcases eq_or_ne table'.entries #[] with hempty' | hne'
  · rw [hempty, hempty']
  · exact absurd (hformat.symm.trans (format_of_eq hempty)) (format_ne_of_ne hne')
  · exact absurd (hformat.trans (format_of_eq hempty')) (format_ne_of_ne hne)
  · have hlists := congrArg String.toList hformat
    rw [toList_format_of_ne hne, toList_format_of_ne hne'] at hlists
    refine Array.toList_inj.1 (rows_injective ?_ ?_ (List.append_cancel_left hlists))
    · exact fun entry hentry => h entry (Array.mem_toList_iff.1 hentry)
    · exact fun entry hentry => h' entry (Array.mem_toList_iff.1 hentry)

/-- An entry whose name fills its column. -/
def longEntry (number level : Nat) : Entry :=
  ⟨"a_name_of_20_letters", .int, innerName (some "repeat_body") (number + 1), level, some 3⟩

theorem legible_longEntry {level : Nat} (hlevel : level < 10 ^ 7) (number : Nat) :
    Legible (longEntry number level) where
  named := by simp [longEntry]
  name c hc := by
    have hname : "a_name_of_20_letters".toList.all (!isSpace ·) = true := by decide +kernel
    simpa using List.all_eq_true.1 hname c hc
  scope := ⟨⟨[⟨"global", []⟩], #[], number⟩, "repeat_body", .inr ⟨.repeatBody, rfl⟩, rfl⟩
  level := hlevel

/-- The cells of two rows run into each other and hold the same letters, but not as many blanks. -/
theorem table_text_lossless_touching :
    Legible (longEntry 123455 12) ∧ Legible (longEntry 1234560 2) ∧
      formatEntry (longEntry 123455 12) =
        "a_name_of_20_lettersInt       repeat_body#12345612      3\n" ∧
      formatEntry (longEntry 1234560 2) =
        "a_name_of_20_lettersInt       repeat_body#12345612       3\n" ∧
      format ⟨[], #[longEntry 123455 12], 123456⟩ ≠
        format ⟨[], #[longEntry 1234560 2], 1234561⟩ := by
  have hlegible : Legible (longEntry 123455 12) := legible_longEntry (by decide) _
  have hlegible' : Legible (longEntry 1234560 2) := legible_longEntry (by decide) _
  refine ⟨hlegible, hlegible', by decide +kernel, by decide +kernel, fun hformat => ?_⟩
  have hentries := table_text_lossless.1 _ _ (by simpa using hlegible) (by simpa using hlegible')
    hformat
  exact absurd hentries (by decide +kernel)

end MiniPascal
