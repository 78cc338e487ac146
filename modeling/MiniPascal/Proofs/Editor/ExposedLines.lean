import MiniPascal.Editor.Gutter
import Mathlib.Algebra.Order.BigOperators.Group.List
import Mathlib.Algebra.Order.Ring.Rat

/-!
# The lines that are numbered

The gutter goes from block to block and adds up their heights, until one begins below the part to
be painted. As no height is negative, none of the blocks after that one reaches into the part
either, so the numbers drawn are those of all visible blocks that do, in their order
(`exposed_lines_numbered`). This is about heights that are added up exactly.
-/

namespace MiniPascal.Editor.Gutter

/-- Where the `i`-th block begins, the first one beginning at height `top`. -/
def topOf {Height : Type} [AddMonoid Height] (top : Height) (blocks : List (Block Height))
    (i : Nat) : Height :=
  top + ((blocks.take i).map Block.height).sum

variable {Height : Type} [AddCommMonoid Height]

@[simp]
theorem topOf_zero (top : Height) (blocks : List (Block Height)) : topOf top blocks 0 = top := by
  simp [topOf]

@[simp]
theorem topOf_cons_succ (top : Height) (block : Block Height) (blocks : List (Block Height))
    (i : Nat) : topOf top (block :: blocks) (i + 1) = topOf (top + block.height) blocks i := by
  simp [topOf, add_assoc]

variable [LinearOrder Height] [IsOrderedAddMonoid Height] {lineHeight first last top t : Height}
  {number n : Nat} {blocks : List (Block Height)}

theorem le_topOf (hheights : ∀ block ∈ blocks, 0 ≤ block.height) (top : Height) (i : Nat) :
    top ≤ topOf top blocks i := by
  refine le_add_of_nonneg_right (List.sum_nonneg (List.forall_mem_map.2 fun block hblock => ?_))
  exact hheights block (List.mem_of_mem_take hblock)

/-- The `i`-th block is visible and reaches into the rows from `first` to `last`, `t` being where
    it begins. -/
structure Reaches (lineHeight first last top : Height) (blocks : List (Block Height)) (i : Nat)
    (t : Height) : Prop where
  visible : ∃ block, blocks[i]? = some block ∧ block.visible = true
  begins : t = topOf top blocks i
  above : t ≤ last
  below : first ≤ t + lineHeight

omit [IsOrderedAddMonoid Height] in
theorem reaches_cons_zero {block : Block Height} :
    Reaches lineHeight first last top (block :: blocks) 0 t ↔
      t = top ∧ top ≤ last ∧ block.visible = true ∧ first ≤ top + lineHeight := by
  constructor
  · rintro ⟨⟨_, ⟨⟩, hvisible⟩, rfl, habove, hbelow⟩
    rw [topOf_zero] at *
    exact ⟨rfl, habove, hvisible, hbelow⟩
  · rintro ⟨rfl, habove, hvisible, hbelow⟩
    exact ⟨⟨block, rfl, hvisible⟩, (topOf_zero _ _).symm, habove, hbelow⟩

omit [IsOrderedAddMonoid Height] in
theorem reaches_cons_succ {block : Block Height} {i : Nat} :
    Reaches lineHeight first last top (block :: blocks) (i + 1) t ↔
      Reaches lineHeight first last (top + block.height) blocks i t := by
  constructor
  · rintro ⟨hvisible, hbegins, habove, hbelow⟩
    exact ⟨hvisible, by rwa [topOf_cons_succ] at hbegins, habove, hbelow⟩
  · rintro ⟨hvisible, hbegins, habove, hbelow⟩
    exact ⟨hvisible, by rwa [topOf_cons_succ], habove, hbelow⟩

/-- The numbers are those of the blocks that reach into the rows, each with where its block
    begins. -/
theorem mem_exposed_iff (hheights : ∀ block ∈ blocks, 0 ≤ block.height) :
    (n, t) ∈ exposed lineHeight first last number top blocks ↔
      ∃ i, n = number + i ∧ Reaches lineHeight first last top blocks i t := by
  induction blocks generalizing number top with
  | nil =>
    refine iff_of_false List.not_mem_nil ?_
    rintro ⟨i, -, ⟨block, hblock, -⟩, -⟩
    cases hblock
  | cons block blocks ih =>
    obtain ⟨-, hothers⟩ := List.forall_mem_cons.1 hheights
    rw [exposed]
    split
    · next habove =>
      have hrest : (n, t) ∈ exposed lineHeight first last (number + 1) (top + block.height) blocks ↔
          ∃ i, n = number + 1 + i ∧
            Reaches lineHeight first last (top + block.height) blocks i t := ih hothers
      have hcases : (∃ i, n = number + i ∧
          Reaches lineHeight first last top (block :: blocks) i t) ↔
          (n = number ∧ t = top ∧ block.visible = true ∧ first ≤ top + lineHeight) ∨
            (n, t) ∈ exposed lineHeight first last (number + 1) (top + block.height) blocks := by
        rw [hrest]
        constructor
        · rintro ⟨i, rfl, hreaches⟩
          cases i with
          | zero =>
            obtain ⟨rfl, -, hvisible, hbelow⟩ := reaches_cons_zero.1 hreaches
            exact .inl ⟨rfl, rfl, hvisible, hbelow⟩
          | succ i => exact .inr ⟨i, by omega, reaches_cons_succ.1 hreaches⟩
        · rintro (⟨rfl, rfl, hvisible, hbelow⟩ | ⟨i, rfl, hreaches⟩)
          · exact ⟨0, rfl, reaches_cons_zero.2 ⟨rfl, habove, hvisible, hbelow⟩⟩
          · exact ⟨i + 1, by omega, reaches_cons_succ.2 hreaches⟩
      rw [hcases]
      split
      · next hdrawn => simp [hdrawn]
      · next hskipped => simp [hskipped]
    · next hbelow =>
      -- All blocks from here on begin below the last row.
      refine iff_of_false List.not_mem_nil ?_
      rintro ⟨i, -, -, rfl, habove, -⟩
      exact hbelow ((le_topOf hheights top i).trans habove)

/-- The numbers are drawn in increasing order, so each at most once. -/
theorem pairwise_exposed (hheights : ∀ block ∈ blocks, 0 ≤ block.height) :
    (exposed lineHeight first last number top blocks).Pairwise (·.1 < ·.1) := by
  induction blocks generalizing number top with
  | nil => exact .nil
  | cons block blocks ih =>
    obtain ⟨-, hothers⟩ := List.forall_mem_cons.1 hheights
    have hrest : (exposed lineHeight first last (number + 1) (top + block.height) blocks).Pairwise
        (·.1 < ·.1) := ih hothers
    rw [exposed]
    split
    · simp only
      split
      · refine hrest.cons fun ⟨n, t⟩ hmem => ?_
        obtain ⟨i, rfl, -⟩ := (mem_exposed_iff hothers).1 hmem
        simp only
        omega
      · exact hrest
    · exact .nil

/-- Whatever the blocks and the part to be painted are, and however rows are turned into heights and
    back: the numbers drawn are those of the visible blocks that begin no lower than the part ends,
    and with the height of a line reach it, each drawn where its block begins, once and in
    increasing order. -/
theorem exposed_lines_numbered (ofRow : Int → Height) (toRow : Height → Int)
    (width lineHeight : Int) (part : Rect) (number : Nat) (top : Height)
    (blocks : List (Block Height)) (hheights : ∀ block ∈ blocks, 0 ≤ block.height) :
    ∃ numbers : List (Nat × Height),
      paintWith ofRow toRow width lineHeight part number top blocks =
        strokes width lineHeight part (numbers.map fun (n, t) => (n, toRow t)) ∧
      numbers.Pairwise (·.1 < ·.1) ∧
      ∀ n t, (n, t) ∈ numbers ↔ ∃ i, n = number + i ∧
        Reaches (ofRow lineHeight) (ofRow part.y) (ofRow part.bottom) top blocks i t :=
  ⟨_, rfl, pairwise_exposed hheights, fun _ _ => mem_exposed_iff hheights⟩

/-- A height cut off to a row. -/
def cutOff (t : ℚ) : Int :=
  t.num.tdiv t.den

/-- Blocks with fractional heights, one of them invisible and one of no height. -/
def sampleBlocks : List (Block ℚ) :=
  [⟨true, 1 / 2⟩, ⟨true, 0⟩, ⟨false, 15⟩, ⟨true, 15⟩, ⟨true, 1 / 2⟩, ⟨true, 1⟩]

/-- Rows 10 to 30 are painted. The lines that just touch them are numbered, those half a row
    above and below are not. -/
theorem exposed_lines_numbered_edges :
    (∀ block ∈ sampleBlocks, 0 ≤ block.height) ∧
    ∃ numbers : List (Nat × ℚ),
      paintWith Int.cast cutOff 40 10 ⟨0, 10, 40, 21⟩ 4 (-1 / 2) sampleBlocks =
        strokes 40 10 ⟨0, 10, 40, 21⟩ (numbers.map fun (n, t) => (n, cutOff t)) ∧
      (5, 0) ∈ numbers ∧ (8, 30) ∈ numbers ∧ (4, -1 / 2) ∉ numbers ∧ (9, 61 / 2) ∉ numbers := by
  have hheights : ∀ block ∈ sampleBlocks, 0 ≤ block.height := by
    decide +kernel
  obtain ⟨numbers, hpaint, -, hmem⟩ := exposed_lines_numbered Int.cast cutOff 40 10
    ⟨0, 10, 40, 21⟩ 4 (-1 / 2) sampleBlocks hheights
  refine ⟨hheights, numbers, hpaint, (hmem _ _).2 ?_, (hmem _ _).2 ?_, fun h => ?_, fun h => ?_⟩
  · exact ⟨1, rfl, ⟨_, rfl, rfl⟩, by decide +kernel, by decide +kernel, by decide +kernel⟩
  · exact ⟨4, rfl, ⟨_, rfl, rfl⟩, by decide +kernel, by decide +kernel, by decide +kernel⟩
  · obtain ⟨_, -, -, -, -, hbelow⟩ := (hmem _ _).1 h
    exact absurd hbelow (by decide +kernel)
  · obtain ⟨_, -, -, -, habove, -⟩ := (hmem _ _).1 h
    exact absurd habove (by decide +kernel)

end MiniPascal.Editor.Gutter
