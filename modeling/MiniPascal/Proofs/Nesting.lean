import MiniPascal.Proofs.Grammar

/-!
# The nesting of words

What the brackets of a word cost of a budget: parentheses in an expression, and bodies, which
stand between `then`, `else`, `do` or `repeat` and the word that ends them. The costs of
brackets add up only where they stand within each other, so a word is read with what is left
inside each bracket that is open (`spend`).

The word of an expression or a statement closes what it opens. After it the budget is what it
was before it, unless it has been exceeded on the way (`Expr.balanced_yield`,
`Stmt.balanced_yield`).
-/

namespace MiniPascal

/-- What is left of a budget where a word has been read in part. -/
structure Allowance where
  /-- What is left within the innermost bracket. -/
  left : Nat
  /-- What is left within the brackets around it, innermost first. -/
  outer : List Nat
  /-- Whether a parenthesis costs nothing here. -/
  free : Bool

namespace Allowance

/-- A bracket is opened, for its cost. -/
def opening (cost : Nat) (x : Allowance) : Option Allowance :=
  if cost ≤ x.left then some ⟨x.left - cost, x.left :: x.outer, false⟩ else none

/-- The innermost bracket is closed. -/
def closing (x : Allowance) : Allowance :=
  ⟨x.outer.headD x.left, x.outer.tail, false⟩

/-- What is left after a kind. The parentheses after `in` and `out` are no nesting. -/
def pass (x : Allowance) : Kind → Option Allowance
  | .leftParen => x.opening (if x.free then 0 else 5)
  | .kwThen | .kwDo | .kwRepeat => x.opening 4
  | .kwElse => x.closing.opening 4
  | .rightParen | .kwUntil | .kwEnd => some x.closing
  | kind => some { x with free := kind = .kwIn ∨ kind = .kwOut }

end Allowance

/-- What is left after a word, if the budget is not exceeded within it. -/
def spend (x : Option Allowance) (w : List Terminal) : Option Allowance :=
  w.foldl (fun x t => x.bind (·.pass t.kind)) x

/-- So much is left within the innermost bracket and those around it. -/
def within (left : Nat) (outer : List Nat) : Option Allowance :=
  some ⟨left, outer, false⟩

/-- What is left after a bracket is opened. -/
def opened (cost left : Nat) (outer : List Nat) : Option Allowance :=
  if cost ≤ left then within (left - cost) (left :: outer) else none

variable {v w : List Terminal} {kind : Kind}

theorem spend_append (x : Option Allowance) (v w : List Terminal) :
    spend x (v ++ w) = spend (spend x v) w :=
  List.foldl_append

@[simp]
theorem spend_none (w : List Terminal) : spend none w = none := by
  induction w with
  | nil => rfl
  | cons t w ih => exact ih

/-! ### Short words -/

/-- So much is left within every bracket that is open. -/
structure Allowance.AtLeast (n : Nat) (x : Allowance) : Prop where
  left : n ≤ x.left
  outer : ∀ l ∈ x.outer, n ≤ l

namespace Allowance.AtLeast

variable {n cost : Nat} {x : Allowance}

theorem opening (h : x.AtLeast (n + 5)) (hcost : cost ≤ 5) :
    ∃ y, x.opening cost = some y ∧ AtLeast n y := by
  have hleft := h.left
  refine ⟨_, if_pos (by omega), by simp only; omega, ?_⟩
  rintro l (_ | ⟨_, hl⟩)
  · omega
  · exact Nat.le_of_add_right_le (h.outer l hl)

theorem closing (h : x.AtLeast n) : x.closing.AtLeast n := by
  obtain ⟨left, outer, free⟩ := x
  cases outer with
  | nil => exact ⟨h.left, h.outer⟩
  | cons l outer =>
    exact ⟨h.outer l List.mem_cons_self, fun l' hl' => h.outer l' (List.mem_cons_of_mem l hl')⟩

/-- No kind takes more than 5. -/
theorem pass (h : x.AtLeast (n + 5)) (kind : Kind) : ∃ y, x.pass kind = some y ∧ AtLeast n y := by
  have hless : x.AtLeast n :=
    ⟨Nat.le_of_add_right_le h.left, fun l hl => Nat.le_of_add_right_le (h.outer l hl)⟩
  unfold Allowance.pass
  split
  · exact h.opening (by split <;> omega)
  · exact h.opening (by omega)
  · exact h.opening (by omega)
  · exact h.opening (by omega)
  · exact h.closing.opening (by omega)
  · exact ⟨_, rfl, hless.closing⟩
  · exact ⟨_, rfl, hless.closing⟩
  · exact ⟨_, rfl, hless.closing⟩
  · exact ⟨_, rfl, hless.left, hless.outer⟩

/-- A word is not too much for five times as much as it has terminals. -/
theorem spend_ne_none (h : x.AtLeast (5 * w.length)) : spend (some x) w ≠ none := by
  induction w generalizing x with
  | nil => exact Option.some_ne_none x
  | cons t w ih =>
    obtain ⟨y, hpass, hy⟩ := h.pass t.kind
    have hspend : spend (some x) (t :: w) = spend (some y) w := by
      rw [← hpass]
      rfl
    rw [hspend]
    exact ih hy

end Allowance.AtLeast

/-- A word that exceeds a budget has more than a fifth as many terminals. -/
theorem lt_of_spend_eq_none {budget : Nat} (h : spend (within budget []) w = none) :
    budget < 5 * w.length := by
  by_contra hle
  have hall : Allowance.AtLeast (5 * w.length) ⟨budget, [], false⟩ :=
    ⟨Nat.le_of_not_lt hle, fun _ hl => (List.not_mem_nil hl).elim⟩
  exact hall.spend_ne_none h

/-! ### Balanced words -/

/-- A word leaves as much as there was before it, unless it exceeds it. -/
def Balanced (w : List Terminal) : Prop :=
  ∀ left outer, spend (within left outer) w = none ∨
    spend (within left outer) w = within left outer

theorem balanced_nil : Balanced [] :=
  fun _ _ => .inr rfl

theorem Balanced.append (hv : Balanced v) (hw : Balanced w) : Balanced (v ++ w) := by
  intro left outer
  rw [spend_append]
  rcases hv left outer with hv | hv
  · exact .inl (by rw [hv, spend_none])
  · rw [hv]
    exact hw left outer

/-- What a balanced word leaves is there for the word that follows it. -/
theorem Balanced.spend_append_ne_none_iff (hv : Balanced v) {left : Nat} {outer : List Nat} :
    spend (within left outer) (v ++ w) ≠ none ↔
      spend (within left outer) v ≠ none ∧ spend (within left outer) w ≠ none := by
  rw [spend_append]
  rcases hv left outer with hv | hv
  · simp [hv]
  · rw [hv]
    exact ⟨fun h => ⟨Option.some_ne_none _, h⟩, And.right⟩

/-- A bracket can be opened if its cost is there, and what is left suffices for what follows. -/
theorem spend_opened_ne_none {cost left : Nat} {outer : List Nat}
    (h : spend (opened cost left outer) w ≠ none) :
    cost ≤ left ∧ spend (within (left - cost) (left :: outer)) w ≠ none := by
  rw [opened] at h
  split at h
  · next hle => exact ⟨hle, h⟩
  · exact absurd (spend_none w) h

/-- A word within a bracket: `o` opens it and `c` closes it. -/
theorem Balanced.enclosed {o c : List Terminal} (hw : Balanced w) (cost : Nat)
    (hopen : ∀ left outer, spend (within left outer) o = opened cost left outer)
    (hclose : ∀ left left' outer,
      spend (within left (left' :: outer)) c = within left' outer) :
    Balanced (o ++ (w ++ c)) := by
  intro left outer
  rw [spend_append, spend_append, hopen, opened]
  split
  · rcases hw (left - cost) (left :: outer) with hw | hw
    · exact .inl (by rw [hw, spend_none])
    · exact .inr (by rw [hw, hclose])
  · exact .inl (by rw [spend_none, spend_none])

/-- The second branch of a conditional is a bracket like the first one, in its place. -/
theorem Balanced.branches (hv : Balanced v) (hw : Balanced w) :
    Balanced ([.of .kwThen] ++ (v ++ ([.of .kwElse] ++ (w ++ [.of .kwEnd])))) := by
  intro left outer
  have hthen : spend (within left outer) [.of .kwThen] = opened 4 left outer := rfl
  have hbody : Balanced ([.of .kwThen] ++ (w ++ [.of .kwEnd])) :=
    hw.enclosed 4 (fun _ _ => rfl) fun _ _ _ => rfl
  have hbranch := hbody left outer
  rw [spend_append, hthen] at hbranch
  rw [spend_append, spend_append, hthen, opened]
  split
  · rcases hv (left - 4) (left :: outer) with hv | hv
    · exact .inl (by rw [hv, spend_none])
    · have helse : spend (within (left - 4) (left :: outer)) [.of .kwElse] =
          opened 4 left outer := rfl
      rwa [hv, spend_append, helse]
  · exact .inl (by rw [spend_none, spend_none])

theorem balanced_flatMap {α : Type} {f : α → List Terminal} (l : List α)
    (h : ∀ a, Balanced (f a)) : Balanced (l.flatMap f) := by
  induction l with
  | nil => exact balanced_nil
  | cons a l ih => exact (h a).append ih

/-! ### Derivation trees -/

theorem Expr.balanced_yield {form : ExprForm} (e : Expr form) : Balanced e.yield := by
  induction e with
  | name lexeme => exact fun _ _ => .inr rfl
  | constant c => cases c <;> exact fun _ _ => .inr rfl
  | parens e ih => exact ih.enclosed 5 (fun _ _ => rfl) fun _ _ _ => rfl
  | plain f ih | factorA f ih | term t ih | simple e ih => exact ih
  | not f ih | minus f ih => exact .append (fun _ _ => .inr rfl) ih
  | mul left op right ih ih' | add left op right ih ih' | relation left op right ih ih' =>
    refine ih.append (.append ?_ ih')
    cases op <;> exact fun _ _ => .inr rfl

theorem Decl.balanced_yield (d : Decl) : Balanced d.yield := by
  have hothers : Balanced (othersYield d.others) := balanced_flatMap _ fun _ _ _ => .inr rfl
  have htype : Balanced [.of d.type.kind] := by
    cases d.type <;> exact fun _ _ => .inr rfl
  refine htype.append (.append (fun _ _ => .inr rfl) (.append (.append ?_ hothers) ?_))
  · exact fun _ _ => .inr rfl
  · exact fun _ _ => .inr rfl

theorem Stmt.balanced_yield {form : StmtForm} (s : Stmt form) : Balanced s.yield := by
  induction s with
  | assign target value =>
    exact .append (fun _ _ => .inr rfl) (.append (fun _ _ => .inr rfl) value.balanced_yield)
  | ifThen c body ih | whileDo c body ih =>
    refine .append (fun _ _ => .inr rfl) (c.balanced_yield.append ?_)
    exact ih.enclosed 4 (fun _ _ => rfl) fun _ _ _ => rfl
  | ifElse c body other ih ih' =>
    refine .append (fun _ _ => .inr rfl) (c.balanced_yield.append ?_)
    exact ih.branches ih'
  | repeatUntil body c ih =>
    have hbody : Balanced ([.of .kwRepeat] ++ (body.yield ++ [.of .kwUntil])) :=
      ih.enclosed 4 (fun _ _ => rfl) fun _ _ _ => rfl
    have h := hbody.append c.balanced_yield
    rwa [List.append_assoc, List.append_assoc] at h
  | read name | writeLiteral => exact fun _ _ => .inr rfl
  | write value =>
    exact @Balanced.enclosed _ [.of .kwOut, .of .leftParen] _ value.balanced_yield 0
      (fun _ _ => rfl) fun _ _ _ => rfl
  | last s ih => exact ih
  | cons s rest ih ih' => exact ih.append (.append (fun _ _ => .inr rfl) ih')
  | block decls stmts ih => exact (balanced_flatMap decls Decl.balanced_yield).append ih

end MiniPascal
