import MiniPascal.Proofs.Printing
import MiniPascal.Proofs.Renaming
import MiniPascal.Proofs.ScopeNames
import MiniPascal.Proofs.Statements
import MiniPascal.Proofs.Trace

/-!
# Names, scopes and levels in a table

What the symbol table of a text can hold (`Legible`): names in which there is no white space, as
there is none in the lowercase form of a word (`not_isSpace_of_mem_lowercase`), scopes that are
called by the hints of a program, and levels that are few, as every body takes its cost from the
budget of the program (`Stmt.paid_of_mem_sites`).
-/

namespace MiniPascal

open Text Parsing

/-! ### White space -/

/-- The characters of white space. -/
def spaceRanges : Ranges :=
  [ (0x09, 0x0D), (0x1C, 0x20), (0x85, 0x85), (0xA0, 0xA0), (0x1680, 0x1680), (0x2000, 0x200A),
    (0x2028, 0x2029), (0x202F, 0x202F), (0x205F, 0x205F), (0x3000, 0x3000) ]

/-- Whether a character is white space. -/
def isSpace (c : Char) : Bool :=
  spaceRanges.contains c

/-- A character of a lowercase form comes from one of the word, or is the sigma that ends it. -/
theorem mem_lowercase {word : List Char} {c : Char} (h : c ∈ lowercase word) :
    c = 'ς' ∨ ∃ d ∈ word, c ∈ lowerChar d := by
  rw [lowercase] at h
  generalize false = afterCased at h
  induction word generalizing afterCased with
  | nil => cases h
  | cons d word ih =>
    rw [lowercaseFrom] at h
    rcases List.mem_append.1 h with h | h
    · split at h
      · exact .inl (List.mem_singleton.1 h)
      · exact .inr ⟨d, List.mem_cons_self, h⟩
    · rcases ih _ h with hsigma | ⟨d', hd', hc⟩
      · exact .inl hsigma
      · exact .inr ⟨d', List.mem_cons_of_mem _ hd', hc⟩

/-- Code points of a range are no white space if no range of white space meets it. -/
theorem not_isSpace_of_range {first last : Nat} {c : Char} (hfirst : first ≤ c.toNat)
    (hlast : c.toNat ≤ last)
    (h : spaceRanges.all (fun r => r.2 < first || last < r.1) = true) : isSpace c = false := by
  rw [isSpace, ← Bool.not_eq_true, Ranges.contains_iff]
  rintro ⟨r, hr, hle, hge⟩
  have hapart := List.all_eq_true.1 h r hr
  rw [Bool.or_eq_true, decide_eq_true_iff, decide_eq_true_iff] at hapart
  omega

theorem not_isSpace_of_letterRanges {c : Char} (h : letterRanges.contains c = true) :
    isSpace c = false := by
  have hapart : letterRanges.all
      (fun s => spaceRanges.all fun r => r.2 < s.1 || s.2 < r.1) = true := by
    decide +kernel
  obtain ⟨r, hr, hfirst, hlast⟩ := Ranges.contains_iff.1 h
  exact not_isSpace_of_range hfirst hlast (List.all_eq_true.1 hapart r hr)

/-- The lowercase letter of a capital one is no white space. -/
theorem not_isSpace_of_capitalRun {run : CapitalRun} {n : Nat} (hrun : run ∈ capitalRuns)
    (hn : run.contains n = true) :
    isSpace (Char.ofNat (run.lower + (n - run.first))) = false := by
  have hall : capitalRuns.all (fun run => spaceRanges.all fun r =>
      r.2 < run.lower || run.lower + (run.last - run.first) < r.1) = true := by
    decide +kernel
  have hapart := List.all_eq_true.1 hall run hrun
  rw [CapitalRun.contains, Bool.and_eq_true, Bool.and_eq_true, decide_eq_true_iff,
    decide_eq_true_iff] at hn
  obtain ⟨⟨hfirst, hlast⟩, -⟩ := hn
  -- If there is no character of the code point, NUL stands for it.
  have hcode (n : Nat) : (Char.ofNat n).toNat = n ∨ (Char.ofNat n).toNat = 0 := by
    by_cases hvalid : n.isValidChar
    · exact .inl (by rw [Char.ofNat, dif_pos hvalid]; rfl)
    · exact .inr (by rw [Char.ofNat, dif_neg hvalid]; rfl)
  rcases hcode (run.lower + (n - run.first)) with hcode | hcode
  · exact not_isSpace_of_range (by omega) (by omega) hapart
  · exact not_isSpace_of_range (Nat.zero_le _) hcode.le (by decide)

/-- Beyond ASCII there are no other characters of words than letters. -/
theorem letterRanges_of_isWordChar {c : Char} (h : isWordChar c = true) (hc : ¬ c.toNat < 128) :
    letterRanges.contains c = true := by
  have hdigit : isDigit c = false := by
    rw [← Bool.not_eq_true, isDigit_iff]
    omega
  have hunderscore : (c == '_') = false := by
    rw [beq_eq_false_iff_ne]
    rintro rfl
    exact hc (by decide)
  rwa [isWordChar, isLetter, isAlphabetic, if_neg hc, hdigit, hunderscore, Bool.or_false,
    Bool.or_false] at h

theorem not_isSpace_of_mem_lowerChar {c d : Char} (hd : isWordChar d = true)
    (hc : c ∈ lowerChar d) : isSpace c = false := by
  have hascii : ∀ n : Fin 128, isWordChar (Char.ofNat n.val) = true →
      isSpace (Char.ofNat n.val).toLower = false := by
    decide +kernel
  revert hc
  fun_cases lowerChar d with
  | case1 hlt =>
    intro hc
    have hlower := hascii ⟨d.toNat, hlt⟩
    rw [Char.ofNat_toNat] at hlower
    rw [List.mem_singleton.1 hc]
    exact hlower hd
  | case2 =>
    intro hc
    rcases List.mem_cons.1 hc with rfl | hc
    · decide
    · rw [List.mem_singleton.1 hc]
      decide
  | case3 =>
    intro hc
    rw [List.mem_singleton.1 hc]
    decide
  | case4 _ _ _ run hrun =>
    intro hc
    have hcontains := List.find?_some hrun
    rw [List.mem_singleton.1 hc]
    exact not_isSpace_of_capitalRun (List.mem_of_find?_eq_some hrun) hcontains
  | case5 hge _ _ _ =>
    intro hc
    rw [List.mem_singleton.1 hc]
    exact not_isSpace_of_letterRanges (letterRanges_of_isWordChar hd hge)

/-- In the lowercase form of a word there is no white space. -/
theorem not_isSpace_of_mem_lowercase {word : List Char} (hword : ∀ c ∈ word, isWordChar c = true) :
    ∀ c ∈ lowercase word, isSpace c = false := by
  intro c hc
  rcases mem_lowercase hc with rfl | ⟨d, hd, hlower⟩
  · decide
  · exact not_isSpace_of_mem_lowerChar (hword d hd) hlower

/-! ### Entries -/

/-- The hint of the global scope or of a body. -/
def IsHint (hint : String) : Prop :=
  hint = "global" ∨ ∃ kind : BodyKind, hint = kind.hint

/-- The fields of an entry can be told apart in a table: a name without white space, the name of a
    scope that is called by a hint of a program, and a level that is not too high. -/
structure Legible (entry : Entry) : Prop where
  named : entry.name ≠ ""
  name : ∀ c ∈ entry.name.toList, isSpace c = false
  scope : ∃ (table : SymbolTable) (hint : String), IsHint hint ∧
    (table.enter (some hint)).result = .ok entry.scope
  level : entry.level < 10 ^ 7

/-! ### Bodies -/

variable {form : StmtForm} {left level : Nat} {outer : List Nat} {v w : List Terminal}

/-- A body is called by its kind, and for every body that it stands in the budget has paid. -/
def Site.Paid (left level : Nat) (site : Site) : Prop :=
  (∃ kind : BodyKind, site.hint = kind.hint) ∧ 4 * site.level ≤ left + 4 * level

/-- What comes after a keyword and an expression has as much at its disposal as they have. -/
theorem spend_behind {kind : Kind} {e : Expr .expression} (hkind : Balanced [.of kind])
    (h : spend (within left outer) ([.of kind] ++ (e.yield ++ w)) ≠ none) :
    spend (within left outer) w ≠ none :=
  (e.balanced_yield.spend_append_ne_none_iff.1 (hkind.spend_append_ne_none_iff.1 h).2).2

/-- What a word in a bracket and the word after it have at their disposal. -/
theorem spend_bracket {left' : Nat} {outer' : List Nat} {bracket : Terminal} (hv : Balanced v)
    (hbracket : spend (within left' outer') [bracket] = opened 4 left outer)
    (h : spend (within left' outer') ([bracket] ++ (v ++ w)) ≠ none) :
    4 ≤ left ∧ spend (within (left - 4) (left :: outer)) v ≠ none ∧
      spend (within (left - 4) (left :: outer)) w ≠ none := by
  rw [spend_append, hbracket] at h
  obtain ⟨hle, h⟩ := spend_opened_ne_none h
  exact ⟨hle, hv.spend_append_ne_none_iff.1 h⟩

/-- A body and those within it are paid for if what is left suffices for it. -/
theorem Site.paid_body (kind : BodyKind) {decls : List Decl} {sites : List Site} (hle : 4 ≤ left)
    (h : ∀ site ∈ sites, site.Paid (left - 4) (level + 1)) :
    ∀ site ∈ (⟨kind.hint, level + 1, decls⟩ :: sites : List Site), site.Paid left level := by
  refine List.forall_mem_cons.2 ⟨⟨⟨kind, rfl⟩, by simp only; omega⟩, fun site hsite => ?_⟩
  obtain ⟨hkind, hlevel⟩ := h site hsite
  exact ⟨hkind, by omega⟩

/-- The bodies of a statement are paid for by the budget that suffices for its word. -/
theorem Stmt.paid_of_mem_sites {s : Stmt form} (h : spend (within left outer) s.yield ≠ none) :
    ∀ site ∈ s.sites level, site.Paid left level := by
  induction s generalizing left level outer with
  | assign | read | writeLiteral | write => exact List.forall_mem_nil _
  | last s ih => exact ih h
  | cons s rest ih ih' =>
    obtain ⟨hfirst, hrest⟩ := s.balanced_yield.spend_append_ne_none_iff.1 h
    exact List.forall_mem_append.2 ⟨ih hfirst, ih' hrest⟩
  | block decls stmts ih =>
    exact ih ((balanced_flatMap decls Decl.balanced_yield).spend_append_ne_none_iff.1 h).2
  | ifThen c body ih =>
    obtain ⟨hle, hbody, -⟩ :=
      spend_bracket body.balanced_yield rfl (spend_behind (fun _ _ => .inr rfl) h)
    exact Site.paid_body .ifThen hle (ih hbody)
  | whileDo c body ih =>
    obtain ⟨hle, hbody, -⟩ :=
      spend_bracket body.balanced_yield rfl (spend_behind (fun _ _ => .inr rfl) h)
    exact Site.paid_body .whileBody hle (ih hbody)
  | ifElse c body other ih ih' =>
    obtain ⟨hle, hbody, hrest⟩ :=
      spend_bracket body.balanced_yield rfl (spend_behind (fun _ _ => .inr rfl) h)
    obtain ⟨-, hother, -⟩ := spend_bracket other.balanced_yield rfl hrest
    exact List.forall_mem_append.2
      ⟨Site.paid_body .ifThen hle (ih hbody), Site.paid_body .ifElse hle (ih' hother)⟩
  | repeatUntil body c ih =>
    obtain ⟨hle, hbody, -⟩ := spend_bracket body.balanced_yield rfl h
    exact Site.paid_body .repeatBody hle (ih hbody)

/-! ### Tables -/

theorem Decl.of_mem_declared {decls : List Decl} {scope : String} {d : Declaration}
    (h : d ∈ declared decls scope level) : d.scope = scope ∧ d.level = level := by
  obtain ⟨decl, -, hd⟩ := List.mem_flatMap.1 h
  obtain ⟨name, -, rfl⟩ := List.mem_map.1 hd
  exact ⟨rfl, rfl⟩

/-- What bodies declare is in the scope of one of them. -/
theorem Site.exists_of_mem_elaboration {sites : List Site} {number : Nat} {d : Declaration}
    (h : d ∈ Site.elaboration (number + 1) sites) :
    ∃ site ∈ sites, ∃ n, d.scope = s!"{site.hint}#{n + 1}" ∧ d.level = site.level := by
  induction sites generalizing number with
  | nil => cases h
  | cons site sites ih =>
    rw [elaboration_cons] at h
    rcases List.mem_append.1 h with h | h
    · exact ⟨site, List.mem_cons_self, number, Decl.of_mem_declared h⟩
    · obtain ⟨site', hsite', hd⟩ := ih h
      exact ⟨site', List.mem_cons_of_mem _ hsite', hd⟩

/-- A name has no white space in it. -/
theorem IsName.not_isSpace {name : String} (h : IsName name) :
    name ≠ "" ∧ ∀ c ∈ name.toList, isSpace c = false := by
  obtain ⟨w, hw, rfl, -⟩ := h
  rw [wordLexeme, String.toList_ofList]
  refine ⟨fun hempty => ?_, not_isSpace_of_mem_lowercase hw.2⟩
  obtain ⟨c, hc, -⟩ := hw.1
  have hword : w ≠ [] := by
    rintro rfl
    cases hc
  exact lowercase_ne_nil hword (String.ofList_eq_empty_iff.1 hempty)

/-- A program calls its scopes by its hints, and has few levels. -/
theorem scope_of_mem_elaboration {p : Program} (hfits : Fits p.yield) {d : Declaration}
    (h : d ∈ p.elaboration) : (∃ (table : SymbolTable) (hint : String), IsHint hint ∧
      (table.enter (some hint)).result = .ok d.scope) ∧ d.level < 10 ^ 7 := by
  rcases List.mem_append.1 h with h | h
  · obtain ⟨hscope, hlevel⟩ := Decl.of_mem_declared h
    rw [hscope, hlevel]
    exact ⟨⟨.empty, "global", .inl rfl, rfl⟩, by decide⟩
  · obtain ⟨site, hsite, n, hscope, hlevel⟩ := Site.exists_of_mem_elaboration h
    obtain ⟨⟨kind, hkind⟩, hpaid⟩ := Stmt.paid_of_mem_sites (p.fits_iff.1 hfits).2 site hsite
    rw [hscope, hlevel, hkind]
    refine ⟨⟨⟨[⟨"global", []⟩], #[], n⟩, kind.hint, .inr ⟨kind, rfl⟩, ?_⟩, ?_⟩
    · cases kind <;> rfl
    · rw [nestingBudget] at hpaid
      omega

/-- All that a text leaves in its table is legible. -/
theorem legible_of_accepted {text : String} {table : SymbolTable}
    (h : (compile text).outcome = .ok (.accepted table)) {entry : Entry}
    (hentry : entry ∈ table.entries) : Legible entry := by
  have haccepts : (compile text).Accepts := ⟨table, h⟩
  have hfailure := (failure_tokenize_of_accepts haccepts).1
  obtain ⟨p, hp, hentries⟩ := declarations_of_accepted h
  have hdeclared : entry.declaration ∈ p.elaboration := by
    rw [← hentries]
    exact List.mem_map_of_mem (Array.mem_toList_iff.2 hentry)
  have hfits : Fits p.yield := by
    rw [tokenize, Lexer.tokenization, Tokenization.rows_ofScans] at hp
    rw [tokenize, Lexer.tokenization, Tokenization.failure_ofScans] at hfailure
    exact ((accepts_iff_fits hp hfailure).1 haccepts).2
  obtain ⟨hscope, hlevel⟩ := scope_of_mem_elaboration hfits hdeclared
  obtain ⟨token, htoken, hterminal⟩ := token_of_accepted h hentry
  obtain ⟨row, hrow, rfl⟩ := List.mem_map.1 htoken
  obtain ⟨hkind, htext⟩ := Token.eq_of_terminal_name hterminal
  obtain ⟨-, line, rest, hsplit, -⟩ := exists_split_of_unfailed hfailure
  obtain ⟨_, _, _, _, _, -, -, hlexeme⟩ := hsplit.exists_lexemeAt hrow
  obtain ⟨hw, -, htoken, hother⟩ := hlexeme.word_of_kind hkind
  have hname : IsName entry.name := by
    rw [htoken] at htext
    exact ⟨_, hw, htext, htext ▸ hother⟩
  obtain ⟨hnamed, hspaces⟩ := hname.not_isSpace
  exact ⟨hnamed, hspaces, hscope, hlevel⟩

end MiniPascal
