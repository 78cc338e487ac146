import MiniPascal.Proofs.Parser.Descent

/-!
# Progress and the end of a run

Nested parts may be read within a budget or, without one, by the procedures themselves
(`Nested.Recursive`). Either way a part is entered only after a token has been passed
(`Procedure.Enters.passes`), so no more parts can be entered within one another than there are
tokens ahead, and a run comes to its end whether or not there is a budget.

* `Nested.existsUnique_recursive`: nested parts can be read without a budget, in one way only;
* `Nested.Recursive.run_eq`: a run without a budget is that within any budget of five for each
  token ahead;
* `parser_progress`: procedures, loops and descents all pass tokens, and every run ends.

That there is only one way is what ends a run: a procedure that calls itself without passing a
token could answer anything.
-/

namespace MiniPascal

open Parsing

attribute [ext] Nested

/-- Nested parts are read by the procedures themselves, however deep they nest. -/
structure Nested.Recursive (nested : Nested) : Prop where
  inner : nested.inner = expression nested.inner
  body (kind : BodyKind) : nested.body kind = block nested (some kind.hint)

/-- Ways to read nested parts, one for each budget: the procedures read a part, and with what is
    left of the budget the parts within it. -/
structure Nested.Budgeted (ways : Nat → Nested) : Prop where
  inner (left : Nat) : (ways (left + 5)).inner = expression (ways left).inner
  body (left : Nat) (kind : BodyKind) :
    (ways (left + 4)).body kind = block (ways left) (some kind.hint)

theorem Nested.budgeted_nested : Budgeted Parsing.nested :=
  ⟨fun _ => rfl, fun _ _ => rfl⟩

theorem Nested.Recursive.budgeted {whole : Nested} (h : whole.Recursive) :
    Budgeted fun _ => whole :=
  ⟨fun _ => h.inner, fun _ => h.body⟩

/-! ### Budgets that suffice -/

namespace Nested.Budgeted

variable {ways : Nat → Nested} {s : Parser} {budget budget' : Nat}

/-- A part that is entered is read alike within all budgets that suffice for it, if the parts
    within it are. -/
theorem run_part (h : Budgeted ways)
    (hagree : ∀ left left', 5 * s.ahead.length ≤ left → 5 * s.ahead.length ≤ left' →
      NestedAgree s (Parsing.nested left) (ways left'))
    (hb : 5 * s.ahead.length + 5 ≤ budget) (hb' : 5 * s.ahead.length + 5 ≤ budget') :
    (parenthesized budget).run s = (ways budget').inner.run s ∧
      ∀ kind, (Parsing.body budget kind).run s = ((ways budget').body kind).run s := by
  obtain ⟨left, rfl⟩ := Nat.exists_eq_add_of_le' (Nat.le_of_add_left_le hb)
  obtain ⟨left', rfl⟩ := Nat.exists_eq_add_of_le' (Nat.le_of_add_left_le hb')
  refine ⟨?_, fun kind => ?_⟩
  · rw [parenthesized, h.inner]
    have hagree := hagree left left' (by omega) (by omega)
    exact run_procedure_congr (nestedReads left) hagree .expression
  · rw [show left + 5 = left + 1 + 4 from rfl, show left' + 5 = left' + 1 + 4 from rfl,
      Parsing.body, h.body]
    have hagree := hagree (left + 1) (left' + 1) (by omega) (by omega)
    exact run_procedure_congr (nestedReads (left + 1)) hagree (.block (some kind.hint))

/-- Five for each token ahead suffices for the parts that are entered from a state. -/
theorem nestedAgree (h : Budgeted ways) (hb : 5 * s.ahead.length ≤ budget)
    (hb' : 5 * s.ahead.length ≤ budget') :
    NestedAgree s (Parsing.nested budget) (ways budget') := by
  -- Where a part is entered fewer tokens are ahead.
  induction hn : s.ahead.length using Nat.strong_induction_on generalizing s budget budget' with
  | _ n ih =>
    have hpart (t : Parser) (ht : s.PassesAtLeast 1 t) :
        (parenthesized budget).run t = (ways budget').inner.run t ∧
          ∀ kind, (Parsing.body budget kind).run t = ((ways budget').body kind).run t := by
      have hlt := ht.length_le
      refine h.run_part (fun left left' hl hl' => ?_) (by omega) (by omega)
      exact ih t.ahead.length (by omega) hl hl' rfl
    exact ⟨fun t ht => (hpart t ht).1, fun kind t ht => (hpart t ht).2 kind⟩

end Nested.Budgeted

/-! ### Parts without a budget -/

namespace Nested

/-- Nested parts without a budget: for each part there is what the tokens ahead can use up. -/
def unbounded : Nested where
  inner s := (parenthesized (5 * s.ahead.length + 5)).run s
  body kind s := (Parsing.body (5 * s.ahead.length + 5) kind).run s

theorem run_inner_unbounded (s : Parser) :
    unbounded.inner.run s = (parenthesized (5 * s.ahead.length + 5)).run s := by
  rw [unbounded, EStateM.run]

theorem run_body_unbounded (kind : BodyKind) (s : Parser) :
    (unbounded.body kind).run s = (Parsing.body (5 * s.ahead.length + 5) kind).run s := by
  rw [unbounded, EStateM.run]

theorem nestedReads_unbounded : NestedReads unbounded where
  inner := by
    refine ⟨(reads_parenthesized 0).nonempty, fun s => ?_⟩
    rw [run_inner_unbounded]
    exact (reads_parenthesized _).run s
  body kind := by
    refine ⟨(reads_body 0 kind).nonempty, fun s => ?_⟩
    rw [run_body_unbounded]
    exact (reads_body _ kind).run s

/-- What is entered without a budget is read as within any that suffices. -/
theorem nestedAgree_unbounded {s : Parser} {budget : Nat} (hb : 5 * s.ahead.length ≤ budget) :
    NestedAgree s (Parsing.nested budget) unbounded := by
  have hpart (t : Parser) (ht : s.PassesAtLeast 1 t) :
      (parenthesized budget).run t = (parenthesized (5 * t.ahead.length + 5)).run t ∧
        ∀ kind, (Parsing.body budget kind).run t =
          (Parsing.body (5 * t.ahead.length + 5) kind).run t := by
    have hlt := ht.length_le
    exact budgeted_nested.run_part (fun _ _ => budgeted_nested.nestedAgree) (by omega)
      (Nat.le_refl _)
  refine ⟨fun t ht => ?_, fun kind t ht => ?_⟩
  · rw [run_inner_unbounded]
    exact (hpart t ht).1
  · rw [run_body_unbounded]
    exact (hpart t ht).2 kind

theorem recursive_unbounded : unbounded.Recursive where
  inner := by
    refine eq_of_run_eq fun s => ?_
    have hagree : NestedAgree s (Parsing.nested (5 * s.ahead.length)) unbounded :=
      nestedAgree_unbounded (Nat.le_refl _)
    rw [run_inner_unbounded, parenthesized]
    exact run_procedure_congr (nestedReads _) hagree .expression
  body kind := by
    refine eq_of_run_eq fun s => ?_
    have hagree : NestedAgree s (Parsing.nested (5 * s.ahead.length + 1)) unbounded :=
      nestedAgree_unbounded (Nat.le_succ _)
    rw [run_body_unbounded, show 5 * s.ahead.length + 5 = 5 * s.ahead.length + 1 + 4 from rfl,
      Parsing.body]
    exact run_procedure_congr (nestedReads _) hagree (.block (some kind.hint))

/-- There is no other way to read nested parts without a budget. -/
theorem Recursive.eq_unbounded {whole : Nested} (h : whole.Recursive) : whole = unbounded := by
  have hpart (s : Parser) :
      (parenthesized (5 * s.ahead.length + 5)).run s = whole.inner.run s ∧
        ∀ kind, (Parsing.body (5 * s.ahead.length + 5) kind).run s = (whole.body kind).run s :=
    h.budgeted.run_part (fun _ _ => h.budgeted.nestedAgree) (Nat.le_refl _) (Nat.le_refl _)
  ext1
  · exact eq_of_run_eq fun s => (hpart s).1.symm.trans (run_inner_unbounded s).symm
  · refine funext fun kind => eq_of_run_eq fun s => ?_
    exact ((hpart s).2 kind).symm.trans (run_body_unbounded kind s).symm

theorem existsUnique_recursive : ∃! whole : Nested, whole.Recursive :=
  ⟨unbounded, recursive_unbounded, fun _ h => h.eq_unbounded⟩

/-- A run without a budget is that within any budget of five for each token ahead. -/
theorem Recursive.run_eq {whole : Nested} (h : whole.Recursive) (p : Procedure) {s : Parser}
    {budget : Nat} (hb : 5 * s.ahead.length ≤ budget) :
    (p.parsing (Parsing.nested budget)).run s = (p.parsing whole).run s := by
  have hagree : NestedAgree s (Parsing.nested budget) whole :=
    h.budgeted.nestedAgree hb hb
  exact run_procedure_congr (nestedReads budget) hagree p

end Nested

/-! ### Giving up -/

namespace Parsing

variable {s t : Parser} {budget : Nat}

theorem spends_procedure (p : Procedure) (budget : Nat) :
    Spends (within budget []) (within budget []) (p.parsing (Parsing.nested budget)) := by
  have hinner := spends_parenthesized budget
  have hnested := nestedSpends budget
  cases p with
  | typeSpec => exact spends_typeSpec
  | identList ty => exact spends_identList ty
  | decl => exact spends_decl
  | declList => exact spends_declList
  | constant => exact spends_constant
  | factor => exact spends_factor hinner
  | factorA => exact spends_factorA hinner
  | term => exact spends_term hinner
  | simpleExpr => exact spends_simpleExpr hinner
  | expression => exact spends_expression hinner
  | writable => exact spends_writable hinner
  | stmt => exact spends_stmt hnested
  | stmtList => exact spends_stmtList hnested
  | block hint => exact spends_block hnested hint
  | program => exact spends_program budget
  | parse => exact spends_parse budget

/-- A run is given up for nesting only after more tokens than a fifth of the budget. -/
theorem passes_of_tooDeep {p : Procedure}
    (h : (p.parsing (Parsing.nested budget)).run s = .error .tooDeep t) :
    s.PassesAtLeast (budget / 5 + 1) t := by
  have hspends := spends_procedure p budget s
  rw [h] at hspends
  obtain ⟨u, hu, hnone⟩ := hspends
  have hlt := lt_of_spend_eq_none hnone
  rw [List.length_map] at hlt
  exact ⟨u, hu, by omega⟩

/-- Within a budget of five for each token ahead no run is given up for nesting. -/
theorem run_ne_tooDeep (p : Procedure) (hb : 5 * s.ahead.length ≤ budget) :
    (p.parsing (Parsing.nested budget)).run s ≠ .error .tooDeep t := by
  intro h
  have hlength := (passes_of_tooDeep h).length_le
  omega

end Parsing

/-! ### Entered parts -/

namespace Nested

variable {nested : Nested} {s t : Parser}

open Classical in
/-- Nested parts are read as before, except that none is entered at `t`: the run is given up
    there. -/
noncomputable def barred (nested : Nested) (t : Parser) : Nested where
  inner s := if s = t then .error .tooDeep s else nested.inner.run s
  body kind s := if s = t then .error .tooDeep s else (nested.body kind).run s

theorem run_inner_barred_self (nested : Nested) (t : Parser) :
    (nested.barred t).inner.run t = .error .tooDeep t :=
  if_pos rfl

theorem run_body_barred_self (nested : Nested) (kind : BodyKind) (t : Parser) :
    ((nested.barred t).body kind).run t = .error .tooDeep t :=
  if_pos rfl

/-- Where the barred part is not further on, nothing changes. -/
theorem nestedAgree_barred (h : ¬ s.PassesAtLeast 1 t) : NestedAgree s nested (nested.barred t) := by
  have hne (u : Parser) (hu : s.PassesAtLeast 1 u) : u ≠ t := by
    rintro rfl
    exact h hu
  exact ⟨fun u hu => (if_neg (hne u hu)).symm, fun _ u hu => (if_neg (hne u hu)).symm⟩

end Nested

/-- The procedure called at `s` enters a nested part at `t`: it is given up there if the part
    is barred. -/
def Procedure.Enters (p : Procedure) (nested : Nested) (s t : Parser) : Prop :=
  (p.parsing (nested.barred t)).run s = .error .tooDeep t

/-- A factor enters what follows its parenthesis. -/
theorem Procedure.enters_factor {nested : Nested} {s t : Parser} {token : Token}
    (hlook : s.look = some token) (hkind : token.kind = .leftParen)
    (hmove : move.run s = .ok () t) : factor.Enters nested s t := by
  show (Parsing.factor (nested.barred t).inner).run s = .error .tooDeep t
  rw [Parsing.factor, run_bind, run_lookKind?, bind_ok, hlook, Option.map_some, hkind]
  simp only
  rw [← hkind, run_expect_bind hlook, run_bind, hmove, bind_ok]
  rw [run_bind, Nested.run_inner_barred_self, bind_error]

/-- A statement enters the body that follows its `repeat`. -/
theorem Procedure.enters_stmt {nested : Nested} {s t : Parser} {token : Token}
    (hlook : s.look = some token) (hkind : token.kind = .kwRepeat)
    (hmove : move.run s = .ok () t) : stmt.Enters nested s t := by
  show (Parsing.stmt (nested.barred t)).run s = .error .tooDeep t
  rw [Parsing.stmt, run_bind, run_lookKind?, bind_ok, hlook, Option.map_some, hkind]
  simp only
  rw [repeatStmt, ← hkind, run_expect_bind hlook, run_bind, hmove, bind_ok]
  rw [run_bind, Nested.run_body_barred_self, bind_error]

/-- A nested part is entered only after a token has been passed, unless the run is given up for
    another reason. -/
theorem Procedure.Enters.passes {p : Procedure} {nested : Nested} {s t : Parser}
    (h : p.Enters nested s t) (hreads : NestedReads nested)
    (hdeep : (p.parsing nested).run s = .error .tooDeep t → s.PassesAtLeast 1 t) :
    s.PassesAtLeast 1 t := by
  by_contra hnot
  have hrun := run_procedure_congr hreads (Nested.nestedAgree_barred hnot) p
  exact hnot (hdeep (hrun.trans h))

/-! ### Progress -/

/-- Every way of going on passes a token: a procedure that returns has passed one, and so do the
    turns of a loop and the descents into nested parts. -/
structure Progress (nested : Nested) : Prop where
  returns (p : Procedure) : Spans 1 (p.parsing nested)
  declList : Iterates decl Kind.beginsDecl (fun _ _ => decl) declList
  identList (ty : Ty) :
    Iterates (declaredName ty) (· = .comma) (fun _ _ => identStep ty) (identList ty)
  stmtList :
    Iterates (stmt nested) (· = .semicolon) (fun _ _ => stmtStep nested) (stmtList nested)
  simpleExpr :
    Iterates (term nested.inner) Kind.isAdditive (chainStep (term nested.inner))
      (simpleExpr nested.inner)
  term :
    Iterates (factorA nested.inner) Kind.isMultiplicative (chainStep (factorA nested.inner))
      (term nested.inner)
  /-- A nested part is entered only after a token has been passed. -/
  enters {p : Procedure} {s t : Parser} : p.Enters nested s t → s.PassesAtLeast 1 t
  /-- How nested parts are read elsewhere does not matter. -/
  settled {p : Procedure} {s : Parser} {nested' : Nested} : NestedAgree s nested nested' →
    (p.parsing nested).run s = (p.parsing nested').run s
  /-- Parts are not entered within one another forever. -/
  wellFounded : WellFounded fun t s => ∃ p : Procedure, p.Enters nested s t

theorem Parsing.NestedReads.progress {nested : Nested} (hreads : NestedReads nested)
    (hdeep : ∀ (p : Procedure) ⦃s t : Parser⦄,
      (p.parsing nested).run s = .error .tooDeep t → s.PassesAtLeast 1 t) :
    Progress nested := by
  have hpasses {p : Procedure} {s t : Parser} (h : p.Enters nested s t) : s.PassesAtLeast 1 t :=
    h.passes hreads fun hrun => hdeep p hrun
  have hspans (p : Procedure) := spans_procedure hreads p
  exact {
    returns := hspans
    declList := iterates spans_decl progresses_decl
    identList ty := iterates (spans_declaredName ty) (progresses_identStep ty)
    stmtList := iterates (hspans .stmt) (progresses_stmtStep hreads)
    simpleExpr := iterates (hspans .term) (progresses_chainStep (reads_term hreads.inner))
    term := iterates (hspans .factorA) (progresses_chainStep (reads_factorA hreads.inner))
    enters := hpasses
    settled := fun h => run_procedure_congr hreads h _
    wellFounded := by
      -- What is entered has fewer tokens ahead.
      refine Subrelation.wf ?_ (measure fun s : Parser => s.ahead.length).wf
      rintro t s ⟨p, h⟩
      exact (hpasses h).length_le
  }

theorem progress_nested (budget : Nat) : Progress (Parsing.nested budget) :=
  (nestedReads budget).progress fun _ _ _ h => (passes_of_tooDeep h).mono (Nat.le_add_left 1 _)

namespace Nested.Recursive

variable {whole : Nested} (h : whole.Recursive)
include h

theorem nestedReads : NestedReads whole :=
  h.eq_unbounded ▸ nestedReads_unbounded

theorem run_ne_tooDeep (p : Procedure) (s t : Parser) :
    (p.parsing whole).run s ≠ .error .tooDeep t := by
  rw [← h.run_eq p (Nat.le_refl _)]
  exact Parsing.run_ne_tooDeep p (Nat.le_refl _)

theorem progress : Progress whole :=
  h.nestedReads.progress fun p s t hdeep => (h.run_ne_tooDeep p s t hdeep).elim

end Nested.Recursive

/-- Procedures, loops and descents pass tokens, whether nested parts are read without a budget or
    within one. There is exactly one way to read them without, so every run ends; a budget of
    five for each token ahead changes nothing about it, and it is never given up for nesting. -/
theorem parser_progress :
    (∀ nested : Nested,
      (nested.Recursive ∨ ∃ budget, nested = Parsing.nested budget) → Progress nested) ∧
    (∃! whole : Nested, whole.Recursive) ∧
    ∀ whole : Nested, whole.Recursive →
      ∀ (p : Procedure) (s : Parser) (budget : Nat), 5 * s.ahead.length ≤ budget →
        (p.parsing (Parsing.nested budget)).run s = (p.parsing whole).run s ∧
          ∀ t, (p.parsing whole).run s ≠ .error .tooDeep t := by
  refine ⟨?_, Nested.existsUnique_recursive, fun whole h p s budget hb => ?_⟩
  · rintro nested (h | ⟨budget, rfl⟩)
    · exact h.progress
    · exact progress_nested budget
  · exact ⟨h.run_eq p hb, h.run_ne_tooDeep p s⟩

theorem parser_progress_nested_parts : ∃ whole : Nested, whole.Recursive ∧
    (∃ s t s', s.ahead = [.plain .leftParen, .num 1, .plain .rightParen] ∧
      Procedure.factor.Enters whole s t ∧ s.PassesAtLeast 1 t ∧
      (factor whole.inner).run s = .ok .int s' ∧ s.PassesAtLeast 1 s') ∧
    ∃ s t, s.ahead = [.spelled .kwRepeat] ∧
      Procedure.stmt.Enters whole s t ∧ s.PassesAtLeast 1 t := by
  obtain ⟨hprogress, ⟨whole, hwhole, -⟩, hruns⟩ := parser_progress
  have hprogress := hprogress whole (.inl hwhole)
  refine ⟨whole, hwhole, ?_, ?_⟩
  · let pending : List Scan := [⟨.ok (Token.num 1), .ofText ""⟩,
      ⟨.ok (Token.plain .rightParen), .ofText ""⟩]
    let s : Parser := { Parser.ofScans pending with look := some (.plain .leftParen) }
    have henters : Procedure.factor.Enters whole s _ := Procedure.enters_factor rfl rfl rfl
    have hbudget : (Procedure.factor.parsing (Parsing.nested 15)).run s = .ok .int _ := rfl
    have hrun := (hruns whole hwhole .factor s 15 (by decide +kernel)).1.symm.trans hbudget
    exact ⟨s, _, _, rfl, henters, hprogress.enters henters, hrun, hprogress.returns .factor hrun⟩
  · let s : Parser := { Parser.ofScans [] with look := some (.spelled .kwRepeat) }
    have henters : Procedure.stmt.Enters whole s _ := Procedure.enters_stmt rfl rfl rfl
    exact ⟨s, _, rfl, henters, hprogress.enters henters⟩

end MiniPascal
