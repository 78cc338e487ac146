import MiniPascal.Proofs.Parser.Locality

/-!
# Chains of operands

The operands of `simple-expr` and of `term` are joined from left to right, each with what was
read before it. The rules of arithmetic do not associate, so the order of the operands tells
whether a chain has a type at all: a character may be added to an integer and the sum to a
float, but not a character to a float. In closed form (`ChainHasType`), a chain of two operands
or more is logical throughout, or else no operand is of type `bool`, an integer follows a
character that comes first, and no character comes after a float.

What carries the induction along a chain is that two operands may be replaced by one of the
type they have together (`arithmeticTypes_absorb`).

* `chain_closed_form`: how the parser judges a chain of operands that it can read by
  themselves, and where it stops if it rejects it.
-/

namespace MiniPascal

open Parsing

/-! ### The rules in closed form -/

/-- Operands of these types may be joined by arithmetic. -/
structure ArithmeticTypes (types : List Ty) : Prop where
  noBool : .bool ∉ types
  afterChar : types[0]? = some .char → types[1]? = some .int
  afterFloat : types.Pairwise fun left right => left = .float → right ≠ .char

theorem arithmeticTypes_iff {types : List Ty} : ArithmeticTypes types ↔ .bool ∉ types ∧
    (types[0]? = some .char → types[1]? = some .int) ∧
    types.Pairwise fun left right => left = .float → right ≠ .char :=
  ⟨fun h => ⟨h.noBool, h.afterChar, h.afterFloat⟩, fun ⟨hbool, hchar, hfloat⟩ =>
    ⟨hbool, hchar, hfloat⟩⟩

/-- The type of operands joined by arithmetic. -/
def arithmeticType (types : List Ty) : Ty :=
  if .float ∈ types then .float else .int

/-- A chain has a type: that of its only operand, or that of all its operands together. Each
    operand after the first is given with the operator before it. -/
inductive ChainHasType (logical : Kind) (first : Ty) : List (Kind × Ty) → Ty → Prop
  | operand : ChainHasType logical first [] first
  | logical {links : List (Kind × Ty)} : links ≠ [] → first = .bool →
    (∀ link ∈ links, link = (logical, .bool)) → ChainHasType logical first links .bool
  | arithmetic {links : List (Kind × Ty)} : links ≠ [] →
    ArithmeticTypes (first :: links.map Prod.snd) →
    ChainHasType logical first links (arithmeticType (first :: links.map Prod.snd))

/-! ### From left to right -/

/-- The type of a chain, if it has one, as it is found from left to right. -/
def joinAll? (left : Ty) (links : List (Kind × Ty)) : Option Ty :=
  links.foldlM (fun left link => join? link.1 left link.2) left

theorem joinAll?_cons (left : Ty) (link : Kind × Ty) (links : List (Kind × Ty)) :
    joinAll? left (link :: links) = (join? link.1 left link.2).bind (joinAll? · links) :=
  List.foldlM_cons

theorem joinAll?_append (left : Ty) (links others : List (Kind × Ty)) :
    joinAll? left (links ++ others) = (joinAll? left links).bind (joinAll? · others) :=
  List.foldlM_append

theorem join?_of_ne_bool {left : Ty} (h : left ≠ .bool) (op : Kind) (right : Ty) :
    join? op left right =
      if Ty.promote left right = .error then none else some (Ty.promote left right) :=
  if_neg fun hbool => h hbool.2.1

theorem join?_bool_eq_some_iff {op : Kind} {right ty : Ty} :
    join? op .bool right = some ty ↔ (op = .or ∨ op = .and) ∧ right = .bool ∧ ty = .bool := by
  rw [join?_eq_some_iff]
  constructor
  · rintro (hop | herror)
    · exact ⟨hop, rfl, rfl⟩
    · exact absurd rfl herror
  · rintro ⟨hop, rfl, rfl⟩
    exact .logical hop

theorem Ty.isNumeric_promote {left right : Ty} (h : promote left right ≠ error) :
    (promote left right).isNumeric = true := by
  revert h
  cases left <;> cases right <;> decide

/-- Two operands are joined to one, which does in their place. -/
theorem arithmeticTypes_absorb {left right : Ty} (hleft : left ≠ .error) (hright : right ≠ .error)
    (types : List Ty) : ArithmeticTypes (left :: right :: types) ↔
      Ty.promote left right ≠ .error ∧ ArithmeticTypes (Ty.promote left right :: types) := by
  rw [arithmeticTypes_iff, arithmeticTypes_iff]
  cases left <;> cases right <;> simp_all [Ty.promote]

theorem arithmeticType_absorb {left right : Ty} (h : Ty.promote left right ≠ .error)
    (types : List Ty) : arithmeticType (left :: right :: types) =
      arithmeticType (Ty.promote left right :: types) := by
  revert h
  cases left <;> cases right <;> simp [Ty.promote, arithmeticType]

theorem arithmeticTypes_singleton {ty : Ty} (h : ty.isNumeric = true) :
    ArithmeticTypes [ty] ∧ arithmeticType [ty] = ty := by
  revert h
  cases ty <;> simp [Ty.isNumeric, arithmeticType, arithmeticTypes_iff]

variable {links : List (Kind × Ty)} {ty : Ty}

/-- An operand that is no truth value is joined with the next one, and the type they have
    together with the rest. -/
theorem joinAll?_arithmetic_step {left : Ty} {link : Kind × Ty} (hbool : left ≠ .bool)
    (hleft : left ≠ .error) (hright : link.2 ≠ .error)
    (hrest : Ty.promote left link.2 ≠ .error →
      (joinAll? (Ty.promote left link.2) links = some ty ↔
        ArithmeticTypes (Ty.promote left link.2 :: links.map Prod.snd) ∧
          ty = arithmeticType (Ty.promote left link.2 :: links.map Prod.snd))) :
    joinAll? left (link :: links) = some ty ↔
      ArithmeticTypes (left :: link.2 :: links.map Prod.snd) ∧
        ty = arithmeticType (left :: link.2 :: links.map Prod.snd) := by
  rw [joinAll?_cons, join?_of_ne_bool hbool, arithmeticTypes_absorb hleft hright]
  split
  · next hpromote => exact iff_of_false (by simp) fun h => h.1.1 hpromote
  · next hpromote =>
    rw [Option.bind_some, hrest hpromote, arithmeticType_absorb hpromote]
    simp only [ne_eq, hpromote, not_false_eq_true, true_and]

/-- Once a number has been read, arithmetic is found from left to right as in closed form. -/
theorem joinAll?_of_isNumeric (hlinks : ∀ link ∈ links, link.2 ≠ .error) {left : Ty}
    (hleft : left.isNumeric = true) : joinAll? left links = some ty ↔
      ArithmeticTypes (left :: links.map Prod.snd) ∧
        ty = arithmeticType (left :: links.map Prod.snd) := by
  induction links generalizing left with
  | nil =>
    obtain ⟨htypes, htype⟩ := arithmeticTypes_singleton hleft
    simp only [List.map_nil, htype, htypes, true_and]
    exact Option.some_inj.trans eq_comm
  | cons link links ih =>
    obtain ⟨hright, hlinks⟩ := List.forall_mem_cons.1 hlinks
    refine joinAll?_arithmetic_step ?_ ?_ hright fun hpromote =>
      ih hlinks (Ty.isNumeric_promote hpromote)
    · rintro rfl
      cases hleft
    · rintro rfl
      cases hleft

/-- What follows an operand of type `bool` is logical. -/
theorem joinAll?_bool {logical : Kind}
    (hops : ∀ link ∈ links, link.1 = .or ∨ link.1 = .and ↔ link.1 = logical) :
    joinAll? .bool links = some ty ↔ (∀ link ∈ links, link = (logical, .bool)) ∧ ty = .bool := by
  induction links with
  | nil => simp [joinAll?, eq_comm]
  | cons link links ih =>
    obtain ⟨op, right⟩ := link
    have hops := List.forall_mem_cons.1 hops
    rw [joinAll?_cons, List.forall_mem_cons, Option.bind_eq_some_iff]
    constructor
    · rintro ⟨between, hjoin, hrest⟩
      obtain ⟨hop, rfl, rfl⟩ := join?_bool_eq_some_iff.1 hjoin
      obtain ⟨hlogical, rfl⟩ := (ih hops.2).1 hrest
      exact ⟨⟨congrArg (·, Ty.bool) (hops.1.1 hop), hlogical⟩, rfl⟩
    · rintro ⟨⟨hlink, hrest⟩, rfl⟩
      obtain ⟨rfl, rfl⟩ := Prod.mk.inj hlink
      exact ⟨.bool, join?_bool_eq_some_iff.2 ⟨hops.1.2 rfl, rfl, rfl⟩, (ih hops.2).2 ⟨hrest, rfl⟩⟩

/-- The type that is found from left to right is the one in closed form. -/
theorem joinAll?_eq_some_iff {logical : Kind} {first : Ty} (hfirst : first ≠ .error)
    (hlinks : ∀ link ∈ links, link.2 ≠ .error)
    (hops : ∀ link ∈ links, link.1 = .or ∨ link.1 = .and ↔ link.1 = logical) :
    joinAll? first links = some ty ↔ ChainHasType logical first links ty := by
  cases links with
  | nil =>
    constructor
    · rintro ⟨⟩
      exact .operand
    · rintro (_ | ⟨hne, -, -⟩ | ⟨hne, -⟩)
      · rfl
      · exact absurd rfl hne
      · exact absurd rfl hne
  | cons link links =>
    by_cases hbool : first = .bool
    · subst hbool
      rw [joinAll?_bool hops]
      constructor
      · rintro ⟨hlogical, rfl⟩
        exact .logical (List.cons_ne_nil _ _) rfl hlogical
      · rintro (_ | ⟨-, -, hlogical⟩ | ⟨-, htypes⟩)
        · exact ⟨hlogical, rfl⟩
        · exact absurd (List.mem_cons_self ..) htypes.noBool
    · obtain ⟨hright, hlinks⟩ := List.forall_mem_cons.1 hlinks
      rw [joinAll?_arithmetic_step hbool hfirst hright fun hpromote =>
        joinAll?_of_isNumeric hlinks (Ty.isNumeric_promote hpromote)]
      constructor
      · rintro ⟨htypes, rfl⟩
        exact .arithmetic (List.cons_ne_nil _ _) htypes
      · rintro (_ | ⟨-, rfl, -⟩ | ⟨-, htypes⟩)
        · exact absurd rfl hbool
        · exact ⟨htypes, rfl⟩

theorem run_binary (op : Kind) (left right : Ty) (s : Parser) :
    (binary op left right).run s = match join? op left right with
      | some ty => .ok ty s
      | none => .error (.fault ⟨.semantic (.arithmetic left right), some s.line⟩) s := by
  rw [binary, join?]
  split
  · rfl
  · simp only [arithmetic]
    split <;> rfl

/-! ### Chains of tokens -/

/-- The nonterminals whose words are chains. -/
inductive ChainForm
  | simpleExpr
  | term
  deriving DecidableEq, Repr

namespace ChainForm

/-- The form of a chain as an expression. -/
def exprForm : ChainForm → ExprForm
  | simpleExpr => .simpleExpr
  | term => .term

/-- The form of the operands. -/
def operandForm : ChainForm → ExprForm
  | simpleExpr => .term
  | term => .factorA

/-- The operators that join the operands. -/
def joins : ChainForm → Kind → Bool
  | simpleExpr => Kind.isAdditive
  | term => Kind.isMultiplicative

/-- The logical one of them. -/
def logical : ChainForm → Kind
  | simpleExpr => .or
  | term => .and

/-- The procedure that reads a chain. -/
def procedure (form : ChainForm) (budget : Nat) : Parsing Ty :=
  form.exprForm.procedure (parenthesized budget)

/-- The procedure that reads an operand. -/
def operand (form : ChainForm) (budget : Nat) : Parsing Ty :=
  form.operandForm.procedure (parenthesized budget)

/-- An operand that is read by itself in the environment `Γ`. -/
structure Operand (form : ChainForm) (budget : Nat) (Γ : Env) where
  tokens : List Token
  ty : Ty
  reads : ReadsAlone (form.operand budget) Γ tokens ty
  proper : ty ≠ .error

/-- An operand with the operator before it. -/
structure Link (form : ChainForm) (budget : Nat) (Γ : Env) where
  op : Token
  joins : form.joins op.kind = true
  operand : form.Operand budget Γ

variable {form : ChainForm} {budget : Nat} {Γ : Env}

def Link.tokens (link : form.Link budget Γ) : List Token :=
  link.op :: link.operand.tokens

/-- The kind of the operator and the type of the operand. -/
def Link.typed (link : form.Link budget Γ) : Kind × Ty :=
  (link.op.kind, link.operand.ty)

theorem logical_iff {kind : Kind} (h : form.joins kind = true) :
    kind = .or ∨ kind = .and ↔ kind = form.logical := by
  revert h
  cases form <;> cases kind <;> decide

/-- The types of operands are found as in closed form. -/
theorem joinAll?_typed {first : form.Operand budget Γ} {links : List (form.Link budget Γ)}
    {ty : Ty} : joinAll? first.ty (links.map Link.typed) = some ty ↔
      ChainHasType form.logical first.ty (links.map Link.typed) ty := by
  refine joinAll?_eq_some_iff first.proper ?_ ?_
  · simp only [List.forall_mem_map]
    exact fun link _ => link.operand.proper
  · simp only [List.forall_mem_map]
    exact fun link _ => logical_iff link.joins

/-- A chain that has no type has none from some operand on. -/
theorem exists_of_joinAll?_eq_none {links : List (form.Link budget Γ)} {left : Ty}
    (h : joinAll? left (links.map Link.typed) = none) :
    ∃ earlier link later between, links = earlier ++ link :: later ∧
      joinAll? left (earlier.map Link.typed) = some between ∧
      join? link.op.kind between link.operand.ty = none := by
  induction links generalizing left with
  | nil => cases h
  | cons link links ih =>
    rw [List.map_cons, joinAll?_cons] at h
    cases hjoin : join? link.op.kind left link.operand.ty with
    | none => exact ⟨[], link, links, left, rfl, rfl, hjoin⟩
    | some ty =>
      have hrest : joinAll? ty (links.map Link.typed) = none := by
        rw [← h, Link.typed, hjoin]
        rfl
      obtain ⟨earlier, found, later, between, rfl, hearlier, hnone⟩ := ih hrest
      refine ⟨link :: earlier, found, later, between, rfl, ?_, hnone⟩
      rw [List.map_cons, joinAll?_cons, Link.typed, hjoin]
      exact hearlier

/-! ### Runs along a chain -/

theorem advances (form : ChainForm) (budget : Nat) :
    Advances form.joins (chainStep (form.operand budget)) := by
  have hinner := reads_parenthesized budget
  cases form with
  | simpleExpr => exact advances_chainStep (reads_term hinner)
  | term => exact advances_chainStep (reads_factorA hinner)

/-- What a chain goes on with after the operands it has read. -/
def goOn (form : ChainForm) (budget : Nat) (left : Ty) : Parsing Ty :=
  whileLooking form.joins left (chainStep (form.operand budget))

theorem procedure_eq (form : ChainForm) (budget : Nat) :
    form.procedure budget = form.operand budget >>= form.goOn budget := by
  cases form <;> rfl

theorem local_operand (form : ChainForm) (budget : Nat) :
    Local form.operandForm.operators (form.operand budget) :=
  local_procedure form.operandForm budget

theorem stops_operand {rest : List Token} (h : Stops form.exprForm.operators rest) :
    Stops form.operandForm.operators rest :=
  h.mono fun kind => by cases form <;> cases kind <;> decide

theorem stops_joins {rest : List Token} (h : Stops form.exprForm.operators rest) :
    Stops form.joins rest :=
  h.mono fun kind => by cases form <;> cases kind <;> decide

/-- An operand ends before the operator of the next one. -/
theorem stops_links {links : List (form.Link budget Γ)} {rest : List Token}
    (h : Stops form.exprForm.operators rest) :
    Stops form.operandForm.operators (links.flatMap Link.tokens ++ rest) := by
  cases links with
  | nil => exact stops_operand h
  | cons link links =>
    have hop := link.joins
    refine stops_cons.2 ?_
    revert hop
    cases form <;> cases link.op.kind <;> decide

section

variable {around : Surroundings} {links : List (form.Link budget around.env)} {s : Parser}
  (hstops : Stops form.exprForm.operators around.rest)
include hstops

/-- An operand is read up to the operator of the next one. -/
theorem run_operand (operand : form.Operand budget around.env)
    (hs : s.In around (operand.tokens ++ links.flatMap Link.tokens)) :
    ∃ t, (form.operand budget).run s = .ok operand.ty t ∧
      t.In around (links.flatMap Link.tokens) := by
  obtain ⟨t, hrun, ht⟩ := (local_operand form budget).run_in_place
    (Parser.in_before_iff.2 hs) operand.reads (stops_links hstops)
  exact ⟨t, hrun, Parser.in_before_iff.1 ht⟩

/-- A turn of the loop reads an operator and an operand, and joins it to those before it. -/
theorem run_link (link : form.Link budget around.env)
    (hs : s.In around ((link :: links).flatMap Link.tokens)) (left : Ty) :
    ∃ t, t.In around (links.flatMap Link.tokens) ∧ (form.goOn budget left).run s =
      Result.bind ((binary link.op.kind left link.operand.ty).run t) (form.goOn budget) := by
  have hlook : s.look = some link.op := by rw [← Parser.head?_ahead, hs.ahead]; rfl
  obtain ⟨s₁, hmove, hs₁⟩ := exists_run_move hs
  obtain ⟨t, hoperand, ht⟩ := run_operand hstops link.operand hs₁
  refine ⟨t, ht, ?_⟩
  rw [goOn, whileLooking_run (advances form budget) hlook link.joins, chainStep, run_bind, hmove,
    bind_ok, run_bind, hoperand, bind_ok]
  rfl

/-- The loop goes on over operands that are joined to those before them. -/
theorem run_links {earlier : List (form.Link budget around.env)} {left ty : Ty}
    (hjoin : joinAll? left (earlier.map Link.typed) = some ty)
    (hs : s.In around ((earlier ++ links).flatMap Link.tokens)) :
    ∃ t, t.In around (links.flatMap Link.tokens) ∧
      (form.goOn budget left).run s = (form.goOn budget ty).run t := by
  induction earlier generalizing left s with
  | nil =>
    obtain rfl := Option.some.inj hjoin
    exact ⟨s, hs, rfl⟩
  | cons link earlier ih =>
    rw [List.map_cons, joinAll?_cons, Option.bind_eq_some_iff] at hjoin
    obtain ⟨between, hbetween, hjoin⟩ := hjoin
    obtain ⟨s₁, hs₁, hrun⟩ := run_link hstops link hs left
    obtain ⟨t, ht, hrun'⟩ := ih hjoin hs₁
    refine ⟨t, ht, ?_⟩
    rw [hrun, run_binary, show join? link.op.kind left link.operand.ty = some between from hbetween]
    exact hrun'

/-- The loop answers at the end of the chain. -/
theorem run_goOn_end (hs : s.In around []) (ty : Ty) : (form.goOn budget ty).run s = .ok ty s := by
  refine whileLooking_run_of_not ?_ ty
  rw [← Parser.head?_ahead, hs.ahead]
  exact stops_joins hstops

theorem exists_run_procedure (first : form.Operand budget around.env)
    (hs : s.In around (first.tokens ++ links.flatMap Link.tokens)) :
    ∃ t, t.In around (links.flatMap Link.tokens) ∧
      (form.procedure budget).run s = (form.goOn budget first.ty).run t := by
  obtain ⟨t, hfirst, ht⟩ := run_operand hstops first hs
  exact ⟨t, ht, by rw [procedure_eq, run_bind, hfirst, bind_ok]⟩

/-- A chain that has a type is read to its end. -/
theorem exists_run_ok {first : form.Operand budget around.env} {ty : Ty}
    (hty : joinAll? first.ty (links.map Link.typed) = some ty)
    (hs : s.In around (first.tokens ++ links.flatMap Link.tokens)) :
    ∃ t, (form.procedure budget).run s = .ok ty t ∧ t.In around [] := by
  obtain ⟨s₁, hs₁, hfirst⟩ := exists_run_procedure hstops first hs
  obtain ⟨t, ht, hlinks⟩ := run_links hstops hty
    (show s₁.In around ((links ++ []).flatMap Link.tokens) by rwa [List.append_nil])
  exact ⟨t, by rw [hfirst, hlinks, run_goOn_end hstops ht], ht⟩

/-- A chain is read up to an operand that cannot be joined to those before it. -/
theorem exists_run_error {first : form.Operand budget around.env}
    {earlier later : List (form.Link budget around.env)} {link : form.Link budget around.env}
    {left : Ty} (hleft : joinAll? first.ty (earlier.map Link.typed) = some left)
    (hnone : join? link.op.kind left link.operand.ty = none)
    (hs : s.In around (first.tokens ++ (earlier ++ link :: later).flatMap Link.tokens)) :
    ∃ t, (form.procedure budget).run s =
        .error (.fault ⟨.semantic (.arithmetic left link.operand.ty), some t.line⟩) t ∧
      t.In around (later.flatMap Link.tokens) := by
  obtain ⟨s₁, hs₁, hfirst⟩ := exists_run_procedure hstops first hs
  obtain ⟨s₂, hs₂, hlinks⟩ := run_links hstops hleft hs₁
  obtain ⟨t, ht, hlink⟩ := run_link hstops link hs₂ left
  refine ⟨t, ?_, ht⟩
  rw [hfirst, hlinks, hlink, run_binary, hnone]
  rfl

/-- The type of a chain is the one in closed form, and a chain that has one is read to its end.
    Of a chain that has none, the fault is found at the first operand with which it has none, so
    every beginning before that operand has a type. The fault names the type of the operands
    before and that of the operand, and nothing after the operand has been read. -/
theorem chain_closed_form (first : form.Operand budget around.env)
    (hs : s.In around (first.tokens ++ links.flatMap Link.tokens)) :
    (∀ ty, (∃ t, (form.procedure budget).run s = .ok ty t) ↔
      ChainHasType form.logical first.ty (links.map Link.typed) ty) ∧
    (∀ ty t, (form.procedure budget).run s = .ok ty t → t.In around []) ∧
    ((∀ ty, ¬ ChainHasType form.logical first.ty (links.map Link.typed) ty) →
      ∃ earlier link later left t, links = earlier ++ link :: later ∧
        ChainHasType form.logical first.ty (earlier.map Link.typed) left ∧
        (∀ shorter, shorter <+: earlier →
          ∃ ty, ChainHasType form.logical first.ty (shorter.map Link.typed) ty) ∧
        (∀ ty, ¬ ChainHasType form.logical first.ty ((earlier ++ [link]).map Link.typed) ty) ∧
        (form.procedure budget).run s =
          .error (.fault ⟨.semantic (.arithmetic left link.operand.ty), some t.line⟩) t ∧
        t.In around (later.flatMap Link.tokens)) := by
  simp only [← joinAll?_typed]
  cases hjoin : joinAll? first.ty (links.map Link.typed) with
  | some ty =>
    obtain ⟨t, hrun, ht⟩ := exists_run_ok hstops hjoin hs
    rw [hrun]
    refine ⟨fun ty' => ?_, ?_, fun h => absurd rfl (h ty)⟩
    · constructor
      · rintro ⟨_, ⟨⟩⟩
        rfl
      · rintro ⟨⟩
        exact ⟨t, rfl⟩
    · rintro _ _ ⟨⟩
      exact ht
  | none =>
    obtain ⟨earlier, link, later, left, rfl, hleft, hnone⟩ := exists_of_joinAll?_eq_none hjoin
    obtain ⟨t, hrun, ht⟩ := exists_run_error hstops hleft hnone hs
    refine ⟨fun ty => ?_, fun ty t' hok => ?_, fun _ => ⟨earlier, link, later, left, t, rfl, hleft,
      fun shorter hshorter => ?_, fun ty hty => ?_, hrun, ht⟩⟩
    · simp [hrun]
    · rw [hrun] at hok
      cases hok
    · -- What has been joined further on had been joined before.
      obtain ⟨others, rfl⟩ := hshorter
      rw [List.map_append, joinAll?_append, Option.bind_eq_some_iff] at hleft
      exact hleft.imp fun _ h => h.1
    · rw [List.map_append, joinAll?_append, hleft, Option.bind_some, List.map_singleton,
        joinAll?_cons, Link.typed, hnone] at hty
      cases hty

end

/-- A parser before the given tokens, in no scope. -/
def atTokens (tokens : List Token) : Parser where
  pending := tokens.tail.map fun token => ⟨.ok (some token), .ofText ""⟩
  look := tokens.head?
  line := 1
  symbols := .empty
  log := #[]

/-- A constant as an operand. -/
def constantOperand (form : ChainForm) (budget : Nat) (c : Constant) : form.Operand budget [] where
  tokens := [.plain c.kind]
  ty := c.ty
  reads := ⟨atTokens [.plain c.kind], atNext (atTokens [.plain c.kind]) none 1 [],
    ⟨rfl, rfl, rfl⟩, by cases form <;> cases c <;> rfl, rfl⟩
  proper := by cases c <;> decide

/-- Two orders of the same operands. The sum of a character and an integer may be added to a
    float, but a character may not be added to the sum of an integer and a float. -/
theorem chain_closed_form_orders :
    (∃ t, (simpleExpr.procedure 0).run
      (atTokens ([.charConst, .plus, .num, .plus, .real].map Token.plain)) = .ok .float t) ∧
    ¬ ∃ ty t, (simpleExpr.procedure 0).run
      (atTokens ([.num, .plus, .real, .plus, .charConst].map Token.plain)) = .ok ty t := by
  let around : Surroundings := ⟨[], [], none, fun _ => rfl⟩
  let plus (c : Constant) : simpleExpr.Link 0 [] := ⟨.plain .plus, rfl, constantOperand _ 0 c⟩
  have hstops : Stops simpleExpr.exprForm.operators around.rest := rfl
  have hchar : (atTokens ([.charConst, .plus, .num, .plus, .real].map Token.plain)).In around
      ((constantOperand simpleExpr 0 .charConst).tokens ++
        [plus .num, plus .real].flatMap Link.tokens) := ⟨rfl, rfl, rfl⟩
  have hnum : (atTokens ([.num, .plus, .real, .plus, .charConst].map Token.plain)).In around
      ((constantOperand simpleExpr 0 .num).tokens ++
        [plus .real, plus .charConst].flatMap Link.tokens) := ⟨rfl, rfl, rfl⟩
  constructor
  · exact ((chain_closed_form hstops _ hchar).1 .float).2 (joinAll?_typed.1 rfl)
  · rintro ⟨ty, hrun⟩
    have hnone := joinAll?_typed.2 (((chain_closed_form hstops _ hnum).1 ty).1 hrun)
    cases hnone

end ChainForm

end MiniPascal
