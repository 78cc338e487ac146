import MiniPascal.Decimal.Binary64
import MiniPascal.Editor.Style

/-!
# The gutter

The strip left of the text that numbers its lines. It is as wide as the greatest number
and a margin on either side. When a part of it is painted, the numbers drawn are those of
the lines that reach into the part, each at the height of its line.

Heights are of any ordered type with addition, as the screen has fractions of a pixel.
-/

namespace MiniPascal.Editor

/-- A line of the text as the screen shows it. -/
structure Block (Height : Type) where
  visible : Bool
  height : Height

/-- A rectangle, by its upper left corner and its size. -/
structure Rect where
  x : Int
  y : Int
  width : Int
  height : Int
  deriving DecidableEq, Repr

/-- The last row of a rectangle. -/
def Rect.bottom (rect : Rect) : Int :=
  rect.y + rect.height - 1

namespace Gutter

/-- The space left and right of the numbers. -/
def margin : Int :=
  6

/-- The number of digits of the greatest line number; a text has a line at least. -/
def digits (count : Int) : Nat :=
  (Nat.toDigits 10 (max 1 count).toNat).length

/-- The width of the gutter of a text of `count` lines, `advance` being that of a digit. -/
def width (advance count : Int) : Int :=
  2 * margin + advance * digits count

/-- A request to the screen. -/
inductive Update
  | scroll (dx dy : Int)
  | repaint (rect : Rect)
  deriving DecidableEq, Repr

/-- How the gutter follows the text when it scrolls by `dy`, or else is repainted in
    `rect`. -/
def follow (width : Int) (rect : Rect) (dy : Int) : Update :=
  if dy ≠ 0 then .scroll 0 dy else .repaint ⟨0, rect.y, width, rect.height⟩

/-- The numbers to draw, each with its height: of the blocks given, which are numbered
    from `number` on and begin at `top`, the visible ones that reach into the rows from
    `first` to `last`. The blocks after the first one below `last` are not looked at. -/
def exposed {Height : Type} [Add Height] [LE Height] [DecidableLE Height]
    (lineHeight first last : Height) : Nat → Height → List (Block Height) → List (Nat × Height)
  | _, _, [] => []
  | number, top, block :: blocks =>
    if top ≤ last then
      let rest := exposed lineHeight first last (number + 1) (top + block.height) blocks
      if block.visible ∧ first ≤ top + lineHeight then (number, top) :: rest else rest
    else []

/-- What is drawn in the gutter. -/
inductive Stroke
  | fill (rect : Rect) (color : String)
  | pen (color : String)
  | text (rect : Rect) (text : String)
  | finish
  deriving DecidableEq, Repr

/-- The strokes that paint a part of the gutter, given its width, the height of a line of
    numbers and the numbers to draw in it with their rows. -/
def strokes (width lineHeight : Int) (part : Rect) (numbers : List (Nat × Int)) : List Stroke :=
  [.fill part background, .pen "white"] ++
    numbers.map (fun (number, row) =>
      .text ⟨0, row, width - margin, lineHeight⟩ (toString number)) ++
    [.finish]

/-- The strokes that paint a part of the gutter beside a text whose blocks from number
    `number` on are given, the first one beginning at height `top`. The height of a row of
    the screen is given by `ofRow`, and the row that a number is drawn in by `toRow`. -/
def paintWith {Height : Type} [Add Height] [LE Height] [DecidableLE Height]
    (ofRow : Int → Height) (toRow : Height → Int) (width lineHeight : Int) (part : Rect)
    (number : Nat) (top : Height) (blocks : List (Block Height)) : List Stroke :=
  let numbers := exposed (ofRow lineHeight) (ofRow part.y) (ofRow part.bottom) number top blocks
  strokes width lineHeight part (numbers.map fun (number, top) => (number, toRow top))

/-- The strokes that paint a part of the gutter, heights being doubles and cut off to rows. -/
def paint (width lineHeight : Int) (part : Rect) (number : Nat) (top : Float)
    (blocks : List (Block Float)) : List Stroke :=
  paintWith .ofInt Decimal.truncate width lineHeight part number top blocks

end Gutter

end MiniPascal.Editor
