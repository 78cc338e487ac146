import Mathlib.Data.List.Forall2
import MiniPascal.Proofs.Parser.Spending
import MiniPascal.Proofs.Scopes

/-!
# Statements are independent

The statements of a program know of each other nothing but what is declared before all of
them. So a program is accepted exactly if each of its statements would be with the same
declarations and nothing else, in whatever order they stand, and what they declare is then
told by those programs of one statement, but for the numbers of scopes
(`statements_independent`).

That is so of nesting too: how deep a statement may nest does not depend on where it stands
in the program, as a program is accepted exactly if it obeys the rules of scopes and types and
its word fits the budget (`accepts_iff_fits`).
-/

namespace MiniPascal

open Parsing

/-! ### What is accepted, nesting included -/

/-- A word does not exceed the budget of a program. -/
def Fits (w : List Terminal) : Prop :=
  spend (within nestingBudget []) w ≠ none

variable {v w : List Terminal}

theorem fits_append_iff (hv : Balanced v) : Fits (v ++ w) ↔ Fits v ∧ Fits w :=
  hv.spend_append_ne_none_iff

/-- A stream that holds the tokens of a program is accepted exactly if the program obeys the
    rules of scopes and types and its word fits the budget. -/
theorem accepts_iff_fits {p : Program} {scans : List Scan} (h : p.Derives (Scan.tokens scans))
    (hfailure : Scan.failure? scans = none) :
    (compileScans scans).Accepts ↔ p.WellTyped ∧ Fits p.yield := by
  have hjudged := judges_check h hfailure
  rw [accepts_compileScans_iff]
  rcases run_check scans with ⟨s, hs, hrun⟩ | ⟨failure, line, s, hsome, -⟩
  · have hspends := spends_parse nestingBudget s
    rw [← nestedParts, ← hrun] at hspends
    have hword {u : List Token} {s' : Parser} (hu : s.Passes u s') :
        p.yield = u.map Token.terminal ++ s'.ahead.map Token.terminal := by
      rw [← h, ← hs.ahead, hu.ahead, List.map_append]
    rw [Fits]
    generalize check.run (.ofScans scans) = r at hjudged hspends
    generalize nestingBudget = budget at hspends ⊢
    cases r with
    | ok _ s' =>
      obtain ⟨hat, hanswer⟩ := hjudged
      obtain ⟨u, hu, hspend⟩ := hspends
      have hyield : p.yield = u.map Token.terminal := by
        rw [hword hu, hat.ahead, List.map_nil, List.append_nil]
      rw [hyield, hspend]
      exact ⟨fun _ => ⟨allowed_eq_some_iff.1 hanswer, Option.some_ne_none _⟩, fun _ => ⟨s', rfl⟩⟩
    | error e s' =>
      refine ⟨fun ⟨_, h⟩ => (by cases h), fun ⟨hwell, hfits⟩ => ?_⟩
      cases e with
      | fault fault =>
        obtain ⟨cause, line⟩ := fault
        cases cause with
        | semantic => exact absurd hwell (allowed_eq_none_iff.1 hjudged)
        | lexical | syntactic => exact hjudged.elim
      | abort => exact hjudged.elim
      | tooDeep =>
        obtain ⟨u, hu, hspend⟩ := hspends
        rw [hword hu, spend_append, hspend, spend_none] at hfits
        exact absurd rfl hfits
  · rw [hfailure] at hsome
    cases hsome

/-! ### Programs put together of statements -/

/-- A list of statements. -/
def Stmt.list (s : Stmt .stmt) : List (Stmt .stmt) → Stmt .stmtList
  | [] => .last s
  | s' :: others => .cons s (list s' others)

theorem Stmt.yield_list (s : Stmt .stmt) (others : List (Stmt .stmt)) :
    (list s others).yield = [.of .semicolon].intercalate ((s :: others).map yield) := by
  induction others generalizing s with
  | nil => rw [list, yield, List.map_singleton, List.intercalate_singleton]
  | cons s' others ih =>
    rw [list, yield, ih, List.map_cons, List.map_cons, List.map_cons, List.intercalate_cons_cons,
      List.append_assoc]

theorem Stmt.wellTyped_list {Γ : Env} (s : Stmt .stmt) (others : List (Stmt .stmt)) :
    (list s others).WellTyped Γ ↔ ∀ t ∈ s :: others, t.WellTyped Γ := by
  induction others generalizing s with
  | nil =>
    rw [List.forall_mem_singleton]
    exact ⟨fun h => (by cases h; assumption), .last⟩
  | cons s' others ih =>
    rw [List.forall_mem_cons, ← ih]
    exact ⟨fun h => (by cases h; exact ⟨‹_›, ‹_›⟩), fun ⟨h, h'⟩ => .cons h h'⟩

theorem Stmt.fits_list (s : Stmt .stmt) (others : List (Stmt .stmt)) :
    Fits (list s others).yield ↔ ∀ t ∈ s :: others, Fits t.yield := by
  induction others generalizing s with
  | nil => rw [List.forall_mem_singleton, list, yield]
  | cons s' others ih =>
    have hsemicolon : Balanced [.of .semicolon] := fun _ _ => .inr rfl
    have hfits : Fits [.of .semicolon] := Option.some_ne_none _
    rw [list, yield, fits_append_iff s.balanced_yield, fits_append_iff hsemicolon,
      and_iff_right hfits, ih]
    exact (List.forall_mem_cons (p := fun t : Stmt .stmt => Fits t.yield)).symm

theorem Stmt.sites_list (s : Stmt .stmt) (others : List (Stmt .stmt)) (level : Nat) :
    (list s others).sites level = (s :: others).flatMap (·.sites level) := by
  induction others generalizing s with
  | nil => simp [list, sites]
  | cons s' others ih =>
    rw [list, sites, ih]
    rfl

/-- A program fits the budget if its declarations and its statements do. -/
theorem Program.fits_iff (p : Program) :
    Fits p.yield ↔ Fits (p.decls.flatMap Decl.yield) ∧ Fits p.stmts.yield := by
  have hprogram : Balanced [.of .kwProgram] := fun _ _ => .inr rfl
  have hbegin : Balanced [.of .kwBegin] := fun _ _ => .inr rfl
  have hfits : Fits [.of .kwProgram] ∧ Fits [.of .kwBegin] ∧ Fits [.of .kwEnd] :=
    ⟨Option.some_ne_none _, Option.some_ne_none _, Option.some_ne_none _⟩
  rw [yield, fits_append_iff hprogram,
    fits_append_iff (balanced_flatMap p.decls Decl.balanced_yield), fits_append_iff hbegin,
    fits_append_iff p.stmts.balanced_yield]
  simp [hfits]

/-! ### Texts that spell programs -/

/-- A text holds the given tokens and nothing else. -/
structure Spells (text : String) (tokens : List Token) : Prop where
  failure : (tokenize text).failure = none
  tokens : (tokenize text).rows.map Prod.snd = tokens

instance (text : String) (tokens : List Token) : Decidable (Spells text tokens) :=
  decidable_of_iff
    ((tokenize text).failure = none ∧ (tokenize text).rows.map Prod.snd = tokens)
    ⟨fun h => ⟨h.1, h.2⟩, fun h => ⟨h.failure, h.tokens⟩⟩

/-- The tokens of a program, from those of its declarations and of each of its statements. -/
def programTokens (decls : List Token) (stmts : List (List Token)) : List Token :=
  [.spelled .kwProgram] ++ (decls ++ ([.spelled .kwBegin] ++
    ([.plain .semicolon].intercalate stmts ++ [.spelled .kwEnd])))

/-- A statement, and the text of a program that is made up of it alone, after the given
    declarations. -/
structure Alone (decls : List Token) where
  tokens : List Token
  tree : Stmt .stmt
  derives : tokens.map Token.terminal = tree.yield
  text : String
  spells : Spells text (programTokens decls [tokens])

variable {d : List Token} {decls : List Decl} {text : String}

theorem map_intercalate {α β : Type} (f : α → β) (a : α) (l : List (List α)) :
    ([a].intercalate l).map f = [f a].intercalate (l.map (List.map f)) := by
  induction l with
  | nil => rfl
  | cons v l ih =>
    cases l with
    | nil => rw [List.map_singleton, List.intercalate_singleton, List.intercalate_singleton]
    | cons w l =>
      rw [List.map_cons, List.map_cons, List.intercalate_cons_cons, List.intercalate_cons_cons,
        List.map_append, List.map_append, ih]
      rfl

theorem derives_of_spells (hd : d.map Token.terminal = decls.flatMap Decl.yield)
    {part : Alone d} {others : List (Alone d)}
    (h : Spells text (programTokens d ((part :: others).map (·.tokens)))) :
    Program.Derives ⟨decls, .list part.tree (others.map (·.tree))⟩
      ((tokenize text).rows.map Prod.snd) := by
  have hstmts : ((part :: others).map (·.tokens)).map (List.map Token.terminal) =
      ((part :: others).map (·.tree)).map Stmt.yield := by
    rw [List.map_map, List.map_map]
    exact List.map_congr_left fun part _ => part.derives
  rw [Program.Derives, h.tokens, programTokens, Program.yield, Stmt.yield_list, ← List.map_cons,
    ← hstmts]
  simp only [List.map_append, map_intercalate, hd]
  rfl

/-- A program put together of statements is accepted exactly if its declarations and each of the
    statements are in order and fit the budget. -/
theorem accepts_of_spells_iff (hd : d.map Token.terminal = decls.flatMap Decl.yield)
    {parts : List (Alone d)} (hne : parts ≠ [])
    (h : Spells text (programTokens d (parts.map (·.tokens)))) : (compile text).Accepts ↔
      (NoneTwice decls ∧ Fits (decls.flatMap Decl.yield)) ∧
        ∀ part ∈ parts, part.tree.WellTyped [declBindings decls] ∧ Fits part.tree.yield := by
  obtain ⟨part, others, rfl⟩ := List.exists_cons_of_ne_nil hne
  have htokens : (tokenize text).rows.map Prod.snd = Scan.tokens (Lexer.ofText text).scans :=
    Tokenization.rows_ofScans ..
  have hfailure : Scan.failure? (Lexer.ofText text).scans = none :=
    (Tokenization.failure_ofScans ..).symm.trans h.failure
  have hderives := derives_of_spells hd h
  rw [htokens] at hderives
  rw [compile, accepts_iff_fits hderives hfailure, Program.fits_iff, Stmt.fits_list]
  have hwell : Program.WellTyped ⟨decls, .list part.tree (others.map (·.tree))⟩ ↔
      NoneTwice decls ∧ ∀ t ∈ part.tree :: others.map (·.tree),
        t.WellTyped [declBindings decls] := by
    rw [← Stmt.wellTyped_list]
    exact ⟨fun h => ⟨h.noneTwice, h.stmts⟩, fun h => ⟨h.1, h.2⟩⟩
  rw [hwell, ← List.map_cons, List.forall_mem_map, List.forall_mem_map, and_and_and_comm]
  exact and_congr_right fun _ => forall₂_and.symm

/-! ### What statements declare -/

/-- What a declaration says where `n` more bodies come before it. -/
structure Declaration.After (n : Nat) (before after : Declaration) : Prop where
  name : after.name = before.name
  ty : after.ty = before.ty
  level : after.level = before.level
  scope : ∃ (hint : String) (number : Nat),
    before.scope = s!"{hint}#{number}" ∧ after.scope = s!"{hint}#{number + n}"

theorem after_declarations (n number : Nat) (site : Site) : List.Forall₂ (Declaration.After n)
    (site.declarations number) (site.declarations (number + n)) := by
  refine List.rel_flatMap (List.forall₂_same.2 fun d _ => rfl) ?_
  rintro d _ rfl
  refine List.forall₂_map_left_iff.2 (List.forall₂_map_right_iff.2 (List.forall₂_same.2 ?_))
  exact fun name _ => ⟨rfl, rfl, rfl, site.hint, number, rfl, rfl⟩

theorem after_elaboration (n number : Nat) (sites : List Site) :
    List.Forall₂ (Declaration.After n) (Site.elaboration number sites)
      (Site.elaboration (number + n) sites) := by
  induction sites generalizing number with
  | nil => exact .nil
  | cons site sites ih =>
    rw [Site.elaboration_cons, Site.elaboration_cons, Nat.add_right_comm]
    exact List.rel_append (after_declarations n number site) (ih (number + 1))

/-- What statements declare one after another, with `n` bodies before them: what each of them
    declares alone, after the bodies of those before it. -/
inductive DeclareAfter (decls : List Decl) : Nat → List (Alone d) → List Declaration → Prop
  | nil (n : Nat) : DeclareAfter decls n [] []
  | cons {n : Nat} {part : Alone d} {parts : List (Alone d)} {table : SymbolTable}
      {own new others : List Declaration} :
    (compile part.text).outcome = .ok (.accepted table) →
    table.entries.toList.map Entry.declaration = Decl.declared decls "global" 0 ++ own →
    List.Forall₂ (Declaration.After n) own new →
    DeclareAfter decls (n + part.tree.bodyCount) parts others →
    DeclareAfter decls n (part :: parts) (new ++ others)

/-- The table of a program put together of statements. -/
theorem declarations_of_spells (hd : d.map Token.terminal = decls.flatMap Decl.yield)
    {parts : List (Alone d)} (hne : parts ≠ [])
    (h : Spells text (programTokens d (parts.map (·.tokens)))) {table : SymbolTable}
    (houtcome : (compile text).outcome = .ok (.accepted table)) :
    table.entries.toList.map Entry.declaration = Decl.declared decls "global" 0 ++
      Site.elaboration 1 (parts.flatMap (·.tree.sites 0)) := by
  obtain ⟨part, others, rfl⟩ := List.exists_cons_of_ne_nil hne
  obtain ⟨p, hp, hentries⟩ := declarations_of_accepted houtcome
  have hyield := hp.symm.trans (derives_of_spells hd h)
  rw [hentries, Program.elaboration_congr hyield, Program.elaboration, Stmt.sites_list,
    ← List.map_cons, List.flatMap_map]

theorem declareAfter_elaboration (hd : d.map Token.terminal = decls.flatMap Decl.yield)
    {parts : List (Alone d)} (h : ∀ part ∈ parts, (compile part.text).Accepts) (n : Nat) :
    DeclareAfter decls n parts (Site.elaboration (1 + n) (parts.flatMap (·.tree.sites 0))) := by
  induction parts generalizing n with
  | nil => exact .nil n
  | cons part parts ih =>
    obtain ⟨⟨table, houtcome⟩, hparts⟩ := List.forall_mem_cons.1 h
    have hentries := declarations_of_spells hd (List.cons_ne_nil part []) part.spells houtcome
    rw [List.flatMap_singleton] at hentries
    rw [List.flatMap_cons, Site.elaboration_append, Stmt.length_sites, Nat.add_assoc]
    exact .cons houtcome hentries (after_elaboration n 1 _) (ih hparts _)

/-! ### Independence -/

/-- A program is accepted exactly if each of its statements is accepted alone, after the same
    declarations. If so it is accepted with its statements in any order, and its table holds the
    declarations and then what each statement declares alone, with the scopes numbered on. -/
theorem statements_independent {d : List Token} {decls : List Decl}
    (hd : d.map Token.terminal = decls.flatMap Decl.yield) {parts : List (Alone d)}
    (hne : parts ≠ []) {text : String}
    (h : Spells text (programTokens d (parts.map (·.tokens)))) :
    ((compile text).Accepts ↔ ∀ part ∈ parts, (compile part.text).Accepts) ∧
    ((compile text).Accepts → ∀ (parts' : List (Alone d)) (text' : String), parts'.Perm parts →
      Spells text' (programTokens d (parts'.map (·.tokens))) → ∃ table new,
        (compile text').outcome = .ok (.accepted table) ∧
        table.entries.toList.map Entry.declaration = Decl.declared decls "global" 0 ++ new ∧
        DeclareAfter decls 0 parts' new) := by
  have haccepts : (compile text).Accepts ↔ ∀ part ∈ parts, (compile part.text).Accepts := by
    have halone (part : Alone d) := accepts_of_spells_iff hd (List.cons_ne_nil part []) part.spells
    rw [accepts_of_spells_iff hd hne h]
    simp only [halone, List.forall_mem_singleton]
    obtain ⟨part, hpart⟩ := List.exists_mem_of_ne_nil parts hne
    exact ⟨fun ⟨hdecls, hstmts⟩ part hpart => ⟨hdecls, hstmts part hpart⟩,
      fun hparts => ⟨(hparts part hpart).1, fun part hpart => (hparts part hpart).2⟩⟩
  refine ⟨haccepts, fun htext parts' text' hperm h' => ?_⟩
  have hne' : parts' ≠ [] := fun hnil => hne (List.nil_perm.1 (hnil ▸ hperm))
  obtain ⟨hdecls, hstmts⟩ := (accepts_of_spells_iff hd hne h).1 htext
  obtain ⟨table, houtcome⟩ := (accepts_of_spells_iff hd hne' h').2
    ⟨hdecls, fun part hpart => hstmts part (hperm.mem_iff.1 hpart)⟩
  exact ⟨table, _, houtcome, declarations_of_spells hd hne' h' houtcome,
    declareAfter_elaboration hd (fun part hpart =>
      haccepts.1 htext part (hperm.mem_iff.1 hpart)) 0⟩

/-- The tokens of a declaration of `x`. -/
def declareX : List Token :=
  [.spelled .kwInt, .plain .colon, .ident "x", .plain .semicolon]

/-- A conditional that declares a name in its body. -/
def Alone.conditional : Alone declareX where
  tokens := [.spelled .kwIf, .ident "x", .plain .greater, .num 0, .spelled .kwThen,
    .spelled .kwChar, .plain .colon, .ident "y", .plain .semicolon, .ident "y", .plain .assign,
    .charConst 'a', .spelled .kwEnd]
  tree := .ifThen (.relation (.term (.factorA (.plain (.name "x")))) .greater
      (.term (.factorA (.plain (.constant .num)))))
    (.block [⟨.char, "y", []⟩]
      (.last (.assign "y" (.term (.factorA (.plain (.constant .charConst)))))))
  derives := by decide
  text := "program int: x; begin if x>0 then char: y; y='a' end end"
  spells := by decide +kernel

/-- A loop that declares a name in its body. -/
def Alone.loop : Alone declareX where
  tokens := [.spelled .kwRepeat, .spelled .kwInt, .plain .colon, .ident "z", .plain .semicolon,
    .spelled .kwIn, .plain .leftParen, .ident "z", .plain .rightParen, .spelled .kwUntil,
    .ident "x", .plain .less, .num 9]
  tree := .repeatUntil (.block [⟨.int, "z", []⟩] (.last (.read "z")))
    (.relation (.term (.factorA (.plain (.name "x")))) .less
      (.term (.factorA (.plain (.constant .num)))))
  derives := by decide
  text := "program int: x; begin repeat int: z; in(z) until x<9 end"
  spells := by decide +kernel

/-- A conditional and a loop change places, and so the numbers of the scopes of their bodies. -/
theorem statements_independent_swapped : ∃ table new, (compile
      "program int: x; begin repeat int: z; in(z) until x<9; if x>0 then char: y; y='a' end end"
      ).outcome = .ok (.accepted table) ∧
    table.entries.toList.map Entry.declaration = Decl.declared [⟨.int, "x", []⟩] "global" 0 ++ new ∧
    DeclareAfter [⟨.int, "x", []⟩] 0 [.loop, .conditional] new := by
  have hspells : Spells
      "program int: x; begin if x>0 then char: y; y='a' end; repeat int: z; in(z) until x<9 end"
      (programTokens declareX ([.conditional, .loop].map Alone.tokens)) := by
    decide +kernel
  have hspells' : Spells
      "program int: x; begin repeat int: z; in(z) until x<9; if x>0 then char: y; y='a' end end"
      (programTokens declareX ([.loop, .conditional].map Alone.tokens)) := by
    decide +kernel
  exact (statements_independent (by decide) (List.cons_ne_nil _ _) hspells).2 (by decide +kernel)
    [.loop, .conditional] _ (.swap _ _ []) hspells'

end MiniPascal
