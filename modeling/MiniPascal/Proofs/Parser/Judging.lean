import MiniPascal.Proofs.Parser.Recognition
import MiniPascal.Proofs.Typing

/-!
# Judging words

What a procedure of the parser makes of a phrase, said in terms of the rules of scopes and
types. Before tokens that begin with the word of a phrase, and in an environment, it moves
past the word and answers what the rules make of the phrase; if they reject the phrase it
finds a fault of scopes or types, and none of syntax (`Parsing.Judges`). Only nesting may
be too deep for it.

As for what is read (`Parsing.Reads`), the judgements of a sequence of procedures are put
together one by one (`Judges.bind`).
-/

namespace MiniPascal

open Parsing

/-! ### The environment of a table -/

/-- The blocks that the scopes of a table stand for. -/
def SymbolTable.env (table : SymbolTable) : Env :=
  table.scopes.map fun scope => scope.entries.map fun entry => (entry.name, entry.ty)

theorem Scope.lookup_entries (scope : Scope) (name : String) :
    (scope.entries.map fun entry => (entry.name, entry.ty)).lookup name =
      (scope.find? name).map Entry.ty := by
  rw [Scope.find?]
  induction scope.entries with
  | nil => rfl
  | cons entry entries ih =>
    rw [List.map_cons, List.lookup_cons, List.find?_cons, Bool.beq_comm]
    cases entry.name == name with
    | true => rfl
    | false => exact ih

/-- A table and its environment agree on the type of a name. -/
theorem SymbolTable.find?_env (table : SymbolTable) (name : String) :
    table.env.find? name = (table.find? name).map Entry.ty := by
  rw [Env.find?, env, SymbolTable.find?]
  induction table.scopes with
  | nil => rfl
  | cons scope scopes ih =>
    rw [List.map_cons, List.findSome?_cons, List.findSome?_cons, Scope.lookup_entries]
    cases scope.find? name with
    | none => exact ih
    | some entry => rfl

/-- A scope has an entry of a name if its block has the name. -/
theorem Scope.isSome_find?_iff {scope : Scope} {block : Block} {name : String}
    (h : scope.entries.map (fun entry => (entry.name, entry.ty)) = block) :
    (scope.find? name).isSome = true ↔ name ∈ block.names := by
  subst h
  simp [Scope.find?, Block.names]

/-! ### Judgements -/

/-- A parser before the given tokens, with no failure after them, in an environment. -/
structure Parser.At (s : Parser) (Γ : Env) (tokens : List Token) : Prop where
  ahead : s.ahead = tokens
  failure : s.failure? = none
  env : s.symbols.env = Γ

theorem Parser.At.look {s : Parser} {Γ : Env} {tokens : List Token} (h : s.At Γ tokens) :
    s.look = tokens.head? := by
  rw [← h.ahead, Parser.head?_ahead]

/-- The answer to a question of the rules. -/
def allowed (b : Prop) [Decidable b] : Option Unit :=
  if b then some () else none

@[simp]
theorem allowed_eq_some_iff {b : Prop} [Decidable b] : allowed b = some () ↔ b := by
  simp [allowed]

@[simp]
theorem allowed_eq_none_iff {b : Prop} [Decidable b] : allowed b = none ↔ ¬ b := by
  simp [allowed]

theorem allowed_bind {α : Type} (b : Prop) [Decidable b] (x : Option α) :
    ((allowed b).bind fun _ => x) = if b then x else none := by
  by_cases hb : b <;> simp [allowed, hb]

theorem allowed_and (b c : Prop) [Decidable b] [Decidable c] :
    allowed (b ∧ c) = (allowed b).bind fun _ => allowed c := by
  by_cases hb : b <;> simp [allowed, hb]

theorem allowed_isSome {α : Type} (x : Option α) :
    allowed (x.isSome = true) = x.bind fun _ => some () := by
  cases x <;> rfl

namespace Parsing

variable {α β : Type} {Γ Γ' Γ'' : Env} {tokens rest rest' : List Token}

/-- A result is that of a judgement: an answer in the environment `Γ`, before `rest`; a
    fault of scopes or types if there is no answer; or nesting that is too deep. -/
def Judged (Γ : Env) (rest : List Token) (answer : Option α) : Result α → Prop
  | .ok a s => s.At Γ rest ∧ answer = some a
  | .error (.fault ⟨.semantic _, _⟩) _ => answer = none
  | .error .tooDeep _ => True
  | .error _ _ => False

/-- In the environment `Γ` and before `tokens`, the procedure `m` judges what stands before
    `rest`, and leaves the environment `Γ'`. -/
def Judges (Γ : Env) (tokens : List Token) (m : Parsing α) (answer : Option α) (Γ' : Env)
    (rest : List Token) : Prop :=
  ∀ s : Parser, s.At Γ tokens → Judged Γ' rest answer (m.run s)

theorem Judged.bind {r : Result α} {f : α → Parsing β} {x : Option α} {g : α → Option β}
    (h : Judged Γ rest x r)
    (hf : ∀ a, x = some a → Judges Γ rest (f a) (g a) Γ' rest') :
    Judged Γ' rest' (x.bind g) (Result.bind r f) := by
  match r, h with
  | .ok a s, ⟨hs, hx⟩ =>
    rw [hx]
    exact hf a hx s hs
  | .error (.fault ⟨.semantic _, _⟩) _, hx =>
    rw [show x = none from hx]
    rfl
  | .error (.fault ⟨.syntactic _ _, _⟩) _, h => exact h.elim
  | .error (.fault ⟨.lexical _, _⟩) _, h => exact h.elim
  | .error (.abort _) _, h => exact h.elim
  | .error .tooDeep _, _ => trivial

/-- One procedure after another judges one phrase after another. -/
theorem Judges.bind {m : Parsing α} {f : α → Parsing β} {x : Option α} {g : α → Option β}
    (h : Judges Γ tokens m x Γ' rest)
    (hf : ∀ a, x = some a → Judges Γ' rest (f a) (g a) Γ'' rest') :
    Judges Γ tokens (m >>= f) (x.bind g) Γ'' rest' := by
  intro s hs
  rw [run_bind]
  exact (h s hs).bind hf

/-- One procedure after another that always answers. -/
theorem Judges.next {m : Parsing α} {f : α → Parsing β} {a : α} {x : Option β}
    (h : Judges Γ tokens m (some a) Γ' rest) (hf : Judges Γ' rest (f a) x Γ'' rest') :
    Judges Γ tokens (m >>= f) x Γ'' rest' :=
  h.bind (g := fun _ => x) fun _ ha => Option.some.inj ha ▸ hf

/-- One procedure after another whose answer stands. -/
theorem Judges.keep {m : Parsing α} {f : α → Parsing α} {x : Option α}
    (h : Judges Γ tokens m x Γ' rest) (hf : ∀ a, Judges Γ' rest (f a) (some a) Γ'' rest') :
    Judges Γ tokens (m >>= f) x Γ'' rest' := by
  have h' := h.bind fun a _ => hf a
  rwa [Option.bind_fun_some] at h'

theorem judges_pure (a : α) : Judges Γ tokens (pure a) (some a) Γ tokens :=
  fun _ hs => ⟨hs, rfl⟩

theorem judges_failSemantic (cause : SemanticCause) :
    Judges Γ tokens (failSemantic cause) (none : Option α) Γ' rest :=
  fun _ _ => rfl

theorem judges_tooDeep {x : Option α} : Judges Γ tokens (throw .tooDeep) x Γ' rest :=
  fun _ _ => trivial

/-- What a procedure does depends on the token looked at alone, where it asks for its kind. -/
theorem Judges.lookKind? {f : Option Kind → Parsing α} {x : Option α}
    (h : Judges Γ tokens (f (tokens.head?.map Token.kind)) x Γ' rest) :
    Judges Γ tokens (Parsing.lookKind? >>= f) x Γ' rest := by
  intro s hs
  rw [run_bind, run_lookKind?, bind_ok, hs.look]
  exact h s hs

theorem Judges.looking {p : Kind → Bool} {f : Bool → Parsing α} {x : Option α}
    (h : Judges Γ tokens (f ((tokens.head?.map Token.kind).any p)) x Γ' rest) :
    Judges Γ tokens (Parsing.looking p >>= f) x Γ' rest := by
  intro s hs
  rw [run_bind, run_looking, bind_ok, hs.look]
  exact h s hs

/-- A parser moves past the token it looks at. -/
theorem judges_move (token : Token) : Judges Γ (token :: rest) move (some ()) Γ rest := by
  intro s hs
  -- With its fields named, the parser after the step is found by evaluation.
  obtain ⟨pending, look, line, symbols, log⟩ := s
  obtain rfl : look = some token := hs.look
  have hahead : Scan.tokens pending = rest := (List.cons.inj hs.ahead).2
  have hfailure : Scan.failure? pending = none := hs.failure
  match pending with
  | [] => exact ⟨⟨hahead, rfl, hs.env⟩, rfl⟩
  | ⟨.ok none, lexer⟩ :: pending => exact ⟨⟨hahead, rfl, hs.env⟩, rfl⟩
  | ⟨.ok (some next), lexer⟩ :: pending => exact ⟨⟨hahead, hfailure, hs.env⟩, rfl⟩
  | ⟨.error failure, lexer⟩ :: pending => cases hfailure

theorem judges_expect {token : Token} {kind : Kind} (h : token.kind = kind) :
    Judges Γ (token :: rest) (expect kind) (some token) Γ rest := by
  subst h
  intro s hs
  rw [run_expect hs.look]
  exact (judges_move token s hs).bind fun _ _ => judges_pure token

theorem judges_expect_of {token : Token} {kind : Kind} (h : token.terminal = .of kind) :
    Judges Γ (token :: rest) (expect kind) (some token) Γ rest :=
  judges_expect (Token.kind_of_terminal_of h)

/-! ### Scopes and names -/

/-- The entry of a declared name is found, whatever block it is declared in. -/
theorem judges_lookup (name : String) (hΓ : Γ ≠ []) :
    Judges Γ tokens (lookup name) (Γ.find? name) Γ tokens := by
  intro s hs
  have henv : s.symbols.env = Γ := hs.env
  obtain ⟨scope, scopes, hscopes⟩ : ∃ scope scopes, s.symbols.scopes = scope :: scopes := by
    refine List.exists_cons_of_ne_nil fun hnil => hΓ ?_
    rw [← henv, SymbolTable.env, hnil, List.map_nil]
  have hresult : (s.symbols.lookup name).result = .ok (s.symbols.find? name) := by
    simp only [SymbolTable.lookup, hscopes]
  have hat : (answered s (s.symbols.lookup name)).At Γ tokens := by
    refine ⟨hs.ahead, hs.failure, ?_⟩
    rw [answered, SymbolTable.table_lookup, henv]
  rw [lookup, run_bind, run_onSymbols_ok hresult, bind_ok, ← henv, SymbolTable.find?_env, henv]
  cases s.symbols.find? name with
  | none => rfl
  | some entry => exact ⟨hat, rfl⟩

theorem judges_enterScope (hint : Option String) :
    Judges Γ tokens (enterScope hint) (some ()) ([] :: Γ) tokens := by
  intro s hs
  obtain ⟨name, hresult⟩ : ∃ name, (s.symbols.enter hint).result = .ok name := by
    rw [SymbolTable.enter]
    split <;> exact ⟨_, rfl⟩
  have henv : (s.symbols.enter hint).table.env = [] :: s.symbols.env := by
    simp only [SymbolTable.enter, SymbolTable.env]
    split
    · next hnil => rw [hnil]; rfl
    · rfl
  rw [enterScope, run_bind, run_onSymbols_ok hresult, bind_ok]
  exact ⟨⟨hs.ahead, hs.failure, henv.trans (congrArg _ hs.env)⟩, rfl⟩

theorem judges_leaveScope (block : Block) :
    Judges (block :: Γ) tokens leaveScope (some ()) Γ tokens := by
  intro s hs
  have henv : s.symbols.env = block :: Γ := hs.env
  obtain ⟨scope, scopes, hscopes, -, hΓ⟩ := List.map_eq_cons_iff.1 henv
  have hresult : s.symbols.leave.result = .ok () := by
    simp only [SymbolTable.leave, hscopes]
  have htable : s.symbols.leave.table.env = Γ := by
    simp only [SymbolTable.leave, hscopes]
    exact hΓ
  rw [leaveScope, run_onSymbols_ok hresult]
  exact ⟨⟨hs.ahead, hs.failure, htable⟩, rfl⟩

/-- A name is declared if the innermost block does not have it. -/
theorem judges_declare (block : Block) (name : String) (ty : Ty) :
    Judges (block :: Γ) tokens (declare name ty) (allowed (name ∉ block.names))
      ((block ++ [(name, ty)]) :: Γ) tokens := by
  intro s hs
  have henv : s.symbols.env = block :: Γ := hs.env
  obtain ⟨scope, scopes, hscopes, hblock, hΓ⟩ := List.map_eq_cons_iff.1 henv
  rw [run_declare]
  by_cases hname : name ∈ block.names
  · have hsome := (Scope.isSome_find?_iff hblock).2 hname
    have hresult : (s.symbols.declare name ty (some s.line)).result =
        .error (.redeclared name (some s.line)) := by
      simp only [SymbolTable.declare, hscopes, hsome, if_true]
    rw [run_onSymbols_error hresult]
    exact allowed_eq_none_iff.2 (not_not.2 hname)
  · have hnone := mt (Scope.isSome_find?_iff hblock).1 hname
    obtain ⟨entry, hresult⟩ :
        ∃ entry, (s.symbols.declare name ty (some s.line)).result = .ok entry := by
      simp only [SymbolTable.declare, hscopes, if_neg hnone]
      exact ⟨_, rfl⟩
    have htable : (s.symbols.declare name ty (some s.line)).table.env =
        (block ++ [(name, ty)]) :: Γ := by
      simp only [SymbolTable.declare, hscopes, if_neg hnone, SymbolTable.env]
      rw [List.map_cons, List.map_append, hblock, hΓ]
      rfl
    rw [run_onSymbols_ok hresult, bind_ok]
    exact ⟨⟨hs.ahead, hs.failure, htable⟩, allowed_eq_some_iff.2 hname⟩

/-! ### Types -/

theorem judges_arithmetic (left right : Ty) : Judges Γ tokens (arithmetic left right)
    (if Ty.promote left right = .error then none else some (Ty.promote left right)) Γ tokens := by
  simp only [arithmetic]
  split
  · exact judges_failSemantic _
  · exact judges_pure _

theorem judges_binary (op : Kind) (left right : Ty) :
    Judges Γ tokens (binary op left right) (join? op left right) Γ tokens := by
  rw [binary, join?]
  split
  · exact judges_pure _
  · exact judges_arithmetic left right

theorem judges_requireBool (ty : Ty) (what : String) :
    Judges Γ tokens (requireBool ty what) (allowed (ty = .bool)) Γ tokens := by
  rw [requireBool, allowed]
  split
  · exact judges_pure _
  · exact judges_failSemantic _

end Parsing

end MiniPascal
