import Mathlib.Logic.Equiv.List
import MiniPascal.Proofs.Lexer.Renaming
import MiniPascal.Proofs.Parser.Resemblance
import MiniPascal.Proofs.Scopes

/-!
# Other names

What a text calls its variables has no part in what becomes of it. If every name is replaced
by a plain one, and no two by the same, the text is accepted as before, with the same symbol
table but for the names, or it is rejected as before, for a cause of the same class on the
same line (`renaming_invariant`).

The table of a text that is accepted knows names that the text declares, which are among its
tokens (`token_of_accepted`); so it does not matter how one would replace other strings.
-/

namespace MiniPascal

open Parsing

/-- An entry with its name replaced. -/
def Entry.rename (r : String → String) (entry : Entry) : Entry :=
  { entry with name := r entry.name }

/-- A symbol table with its names replaced. -/
def SymbolTable.rename (r : String → String) (table : SymbolTable) : SymbolTable :=
  { table with
    scopes := table.scopes.map fun scope =>
      { scope with entries := scope.entries.map (Entry.rename r) }
    entries := table.entries.map (Entry.rename r) }

/-- The second outcome is the first with the names of the table replaced, or a fault of the same
    class on the same line. -/
inductive SameButNames (r : String → String) : Except Abort Verdict → Except Abort Verdict → Prop
  | accepted (table : SymbolTable) :
    SameButNames r (.ok (.accepted table)) (.ok (.accepted (table.rename r)))
  | rejected {fault fault' : Fault} : fault.cause.category = fault'.cause.category →
    fault.line = fault'.line → SameButNames r (.ok (.rejected fault)) (.ok (.rejected fault'))
  | aborted (abort : Abort) : SameButNames r (.error abort) (.error abort)

/-! ### The names of a table -/

namespace Outline

theorem mem_declarations_read {o : Outline} {t : Terminal} {d : Declaration}
    (h : d ∈ (o.read t).declarations) : d ∈ o.declarations ∨ t = .name d.name := by
  cases t with
  | name lexeme =>
    rw [read] at h
    split at h
    · exact .inl h
    · rcases List.mem_append.1 h with h | h
      · exact .inl h
      · obtain rfl := List.mem_singleton.1 h
        exact .inr rfl
  | of kind => cases kind <;> exact .inl h

/-- What is declared in a word has its name from it. -/
theorem mem_declarations_foldl {o : Outline} {w : List Terminal} {d : Declaration}
    (h : d ∈ (w.foldl read o).declarations) : d ∈ o.declarations ∨ .name d.name ∈ w := by
  induction w generalizing o with
  | nil => exact .inl h
  | cons t w ih =>
    rcases ih h with h | h
    · rcases mem_declarations_read h with h | rfl
      · exact .inl h
      · exact .inr List.mem_cons_self
    · exact .inr (List.mem_cons_of_mem t h)

end Outline

/-- What a text declares has its name from a token of the text. -/
theorem token_of_accepted {text : String} {table : SymbolTable}
    (h : (compile text).outcome = .ok (.accepted table)) {entry : Entry}
    (hentry : entry ∈ table.entries) : ∃ token ∈ (tokenize text).rows.map Prod.snd,
      token.terminal = .name entry.name := by
  obtain ⟨p, hp, hentries⟩ := declarations_of_accepted h
  have hdeclared : entry.declaration ∈ p.elaboration := by
    rw [← hentries]
    exact List.mem_map_of_mem (Array.mem_toList_iff.2 hentry)
  rw [p.elaboration_eq] at hdeclared
  rcases Outline.mem_declarations_foldl hdeclared with hnone | hname
  · cases hnone
  · rw [← hp] at hname
    exact List.mem_map.1 hname

theorem scopes_of_accepted {text : String} {table : SymbolTable}
    (h : (compile text).outcome = .ok (.accepted table)) : table.scopes = [] := by
  obtain ⟨s, hrun, rfl⟩ := run_check_of_accepted h
  exact (elaboration_of_check hrun).1

/-! ### The resemblance -/

variable {r : String → String}

open Classical in
/-- A renaming of names, continued to all strings. What is no name becomes a string that no name
    becomes. -/
noncomputable def renameAll (r : String → String) (name : String) : String :=
  if IsName name then r name else "0" ++ name

theorem renameAll_of_isName {name : String} (h : IsName name) : renameAll r name = r name :=
  if_pos h

section

variable (hinj : Set.InjOn r {name | IsName name})
  (hplain : ∀ name, IsName name → IsPlainName (r name))

include hplain in
theorem rename_ne_append {name : String} (h : IsName name) (other : String) :
    r name ≠ "0" ++ other := by
  intro heq
  obtain ⟨c, hc, hletter⟩ := (hplain name h).word.1
  rw [heq, String.toList_append] at hc
  obtain rfl : '0' = c := Option.some.inj hc
  exact absurd hletter (by decide)

include hinj hplain in
theorem injective_renameAll : Function.Injective (renameAll r) := by
  intro name name' heq
  by_cases h : IsName name <;> by_cases h' : IsName name' <;>
    simp only [renameAll, h, h', if_true, if_false] at heq
  · exact hinj h h' heq
  · exact absurd heq (rename_ne_append hplain h name')
  · exact absurd heq.symm (rename_ne_append hplain h' name)
  · exact (String.append_right_inj _).1 heq

/-- Tokens are alike if the second is the first with its name replaced, and lines if they are
    the same. -/
noncomputable def Resemblance.renamed : Resemblance where
  left := ⟨renameAll r, id, injective_renameAll hinj hplain⟩
  right := .id
  total name := ⟨renameAll r name, rfl⟩
  tokens := RenamedToken r
  kind h := by cases h <;> rfl
  name h hkind := by
    cases h with
    | name hname => exact renameAll_of_isName hname
    | other hother => exact absurd hkind hother

end

namespace Resemblance

variable {hinj : Set.InjOn r {name | IsName name}}
  {hplain : ∀ name, IsName name → IsPlainName (r name)}

theorem category_eq_of_renamed {cause cause' : Cause}
    (h : (renamed hinj hplain).Causes cause cause') : cause.category = cause'.category := by
  cases h <;> rfl

theorem lines_of_eq {line line' : Nat} (h : line = line') :
    (renamed hinj hplain).Lines (some line) (some line') := by
  rw [h]
  rfl

theorem tokenizations_of_renamedTokens {tokens tokens' : Tokenization}
    (h : RenamedTokens r tokens tokens') :
    (renamed hinj hplain).Tokenizations tokens tokens' where
  rows := h.rows.imp fun _ _ ⟨hline, htoken⟩ => ⟨lines_of_eq hline, htoken⟩
  failure := h.failure
  line := lines_of_eq h.line

/-- In a table whose names are names, all strings may be replaced. -/
theorem eq_rename_of_renamed {table table' : SymbolTable} (hscopes : table.scopes = [])
    (hnames : ∀ entry ∈ table.entries, IsName entry.name)
    (h : (renamed hinj hplain).Tables table table') : table' = table.rename r := by
  have hentries : table.entries.map (Entry.translate (renamed hinj hplain).left) =
      table.entries.map (Entry.rename r) := by
    refine Array.map_congr_left fun entry hentry => ?_
    exact congrArg (fun name => { entry with name }) (renameAll_of_isName (hnames entry hentry))
  have htable' : table.translate (renamed hinj hplain).left = table' :=
    h.trans (SymbolTable.translate_id table')
  rw [← htable', SymbolTable.translate, SymbolTable.rename, hentries, hscopes]
  rfl

end Resemblance

theorem RenamedToken.isName {token token' : Token} (h : RenamedToken r token token')
    (hkind : token.kind = .ident) : IsName token.text := by
  cases h with
  | name hname => exact hname
  | other hother => exact absurd hkind hother

/-- The names among tokens that are renamed are names. -/
theorem RenamedTokens.isName {tokens tokens' : Tokenization} (h : RenamedTokens r tokens tokens')
    {token : Token} (htoken : token ∈ tokens.rows.map Prod.snd) {name : String}
    (hname : token.terminal = .name name) : IsName name := by
  obtain ⟨hkind, rfl⟩ := Token.eq_of_terminal_name hname
  have hrows := h.rows
  generalize tokens.rows = rows at hrows htoken
  generalize tokens'.rows = rows' at hrows
  induction hrows with
  | nil => cases htoken
  | cons hrow _ ih =>
    rcases List.mem_cons.1 htoken with rfl | htoken
    · exact hrow.2.isName hkind
    · exact ih htoken

/-- Names that are replaced one by one, each by a plain name, change nothing of the outcome but
    themselves. There is a text with the other names. -/
theorem renaming_invariant (hinj : Set.InjOn r {name | IsName name})
    (hplain : ∀ name, IsName name → IsPlainName (r name)) {text : String}
    (hscan : (tokenize text).failure = none) :
    (∃ text' : String, Renames r text.toList text'.toList) ∧
      ∀ text' : String, Renames r text.toList text'.toList →
        SameButNames r (compile text).outcome (compile text').outcome := by
  refine ⟨exists_renames hscan r, fun text' hrenames => ?_⟩
  have htokens := hrenames.tokens hplain hscan
  have halike : (Resemblance.renamed hinj hplain).Tokenizations (tokenize text) (tokenize text') :=
    Resemblance.tokenizations_of_renamedTokens htokens
  have houtcomes := Resemblance.outcomes_compile halike rfl
  generalize houtcome : (compile text).outcome = outcome at houtcomes ⊢
  generalize (compile text').outcome = outcome' at houtcomes ⊢
  cases houtcomes with
  | @accepted table table' htables =>
    have hnames : ∀ entry ∈ table.entries, IsName entry.name := by
      intro entry hentry
      obtain ⟨token, htoken, hname⟩ := token_of_accepted houtcome hentry
      exact htokens.isName htoken hname
    obtain rfl := Resemblance.eq_rename_of_renamed (scopes_of_accepted houtcome) hnames htables
    exact .accepted table
  | rejected hfaults =>
    exact .rejected (Resemblance.category_eq_of_renamed hfaults.cause) hfaults.line
  | aborted abort => exact .aborted abort

/-- A name by its number, in strokes. -/
def strokes (name : String) : String :=
  String.ofList (List.replicate (Encodable.encode (name.toList.map Char.toNat) + 1) 'v')

theorem injective_strokes : Function.Injective strokes := by
  intro name name' h
  have hlength := congrArg List.length (String.ofList_injective h)
  rw [List.length_replicate, List.length_replicate, Nat.add_right_cancel_iff] at hlength
  have hchars := Encodable.encode_injective hlength
  exact String.toList_injective (List.map_injective_iff.2 (fun _ _ => Char.toNat_inj.1) hchars)

theorem isPlainName_strokes (name : String) : IsPlainName (strokes name) := by
  have hv : ∀ c ∈ (strokes name).toList, c = 'v' := by
    intro c hc
    rw [strokes, String.toList_ofList] at hc
    exact List.eq_of_mem_replicate hc
  refine ⟨⟨⟨'v', ?_, by decide⟩, ?_⟩, ?_, ?_, ?_⟩
  · rw [strokes, String.toList_ofList]
    rfl
  · exact fun c hc => by rw [hv c hc]; decide
  · exact fun c hc => by rw [hv c hc]; decide
  · exact fun c hc => by rw [hv c hc]; decide
  · -- Every reserved word has another letter than `v`.
    intro kind hkind heq
    have hother : ∀ kind ∈ Kind.reservedWords, kind.text.toList.all (· == 'v') = false := by
      decide
    have hall : kind.text.toList.all (· == 'v') = true :=
      List.all_eq_true.2 fun c hc => beq_iff_eq.2 (hv c (heq ▸ hc))
    rw [hother kind hkind] at hall
    cases hall

/-- The variable of a text may be called by its number. -/
theorem renaming_invariant_strokes : Set.InjOn strokes {name | IsName name} ∧
    (∀ name, IsName name → IsPlainName (strokes name)) ∧
    (tokenize "program int: a; begin a = a end").failure = none ∧
    ∃ text', Renames strokes "program int: a; begin a = a end".toList text'.toList ∧
      SameButNames strokes (compile "program int: a; begin a = a end").outcome
        (compile text').outcome := by
  have hinj : Set.InjOn strokes {name | IsName name} := injective_strokes.injOn
  have hplain (name : String) (_ : IsName name) := isPlainName_strokes name
  have hscan : (tokenize "program int: a; begin a = a end").failure = none := by decide +kernel
  obtain ⟨⟨text', hrenames⟩, hsame⟩ := renaming_invariant hinj hplain hscan
  exact ⟨hinj, hplain, hscan, text', hrenames, hsame text' hrenames⟩

end MiniPascal
