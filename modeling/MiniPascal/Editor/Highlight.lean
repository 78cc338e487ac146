import MiniPascal.Editor.Style
import MiniPascal.Lexer.Stream
import MiniPascal.Text.Numeral

/-!
# Highlighting

The editor styles its text line by line, knowing of the lines before only whether they
leave a block comment open. A line is styled by coats of paint, each covering those
before it (`Paint`, `coat`):

1. the part of the line up to the brace that closes a comment left open, as a comment;
2. for each token of the rest, every place where its source text stands;
3. the part from the first percent sign on, as a comment;
4. the parts from opening to closing braces, or to the end of the line, as comments.

The tokens are those of the rest of the line alone, and their source texts are looked
for everywhere in it: in words that differ from them in case they are not found, and in
literals and comments they are.
-/

namespace MiniPascal.Editor

/-- A coat of paint: the style of `count` characters from `start` on. -/
structure Paint where
  start : Nat
  count : Nat
  style : Style
  deriving DecidableEq, Repr

/-! ### Searching for a lexeme -/

/-- Whether there is a word boundary between two characters: exactly one of them is inside
    a word. The ends of a line count as outside. -/
def isBoundary (before after : Option Char) : Bool :=
  before.any Text.isTextWordChar != after.any Text.isTextWordChar

/-- Whether a lexeme stands at the start of the characters `cs`, `before` being the one
    in front of them; if it is to be a whole word, between word boundaries. -/
def standsAt (lexeme : List Char) (wholeWord : Bool) (before : Option Char) (cs : List Char) :
    Bool :=
  lexeme.isPrefixOf cs &&
    (!wholeWord ||
      isBoundary before cs.head? && isBoundary lexeme.getLast? (cs.drop lexeme.length).head?)

/-- Where a lexeme stands in the characters `cs`, which start at position `pos`, from left
    to right and without overlap; the first `skip` of them are passed over. -/
def occurrences (lexeme : List Char) (wholeWord : Bool) :
    Nat → Nat → Option Char → List Char → List Nat
  | _, _, _, [] => []
  | pos, skip + 1, _, c :: cs => occurrences lexeme wholeWord (pos + 1) skip (some c) cs
  | pos, 0, before, c :: cs =>
    if standsAt lexeme wholeWord before (c :: cs) then
      -- The search goes on behind the lexeme.
      pos :: occurrences lexeme wholeWord (pos + 1) (lexeme.length - 1) (some c) cs
    else occurrences lexeme wholeWord (pos + 1) 0 (some c) cs

/-- Whether a lexeme is looked for as a whole word. -/
def isWordLike (lexeme : List Char) : Bool :=
  lexeme.head?.any Text.isTextWordChar

/-- The paint of a token on a line, from position `start` on. -/
def tokenPaint (line : List Char) (start : Nat) (token : Token) : List Paint :=
  let lexeme := (sourceText token).toList
  (occurrences lexeme (isWordLike lexeme) 0 start none line).map fun pos =>
    ⟨pos, lexeme.length, groupStyle token.kind.group⟩

/-! ### Comments -/

/-- The paint of a line comment in the characters `cs`, which start at position `pos`. -/
def lineCommentPaint (pos : Nat) (cs : List Char) : List Paint :=
  match cs.dropWhile (· ≠ '%') with
  | [] => []
  | comment => [⟨pos + (cs.length - comment.length), comment.length, commentStyle⟩]

/-- The paint of block comments in the characters `cs`, which start at position `pos`, and
    whether the last one is left open. A comment that was opened before is given by the
    position of its brace. -/
def blockCommentPaint : Nat → Option Nat → List Char → List Paint × Bool
  | _, none, [] => ([], false)
  | pos, some opened, [] => ([⟨opened, pos - opened, commentStyle⟩], true)
  | pos, none, c :: cs => blockCommentPaint (pos + 1) (if c = '\x7b' then some pos else none) cs
  | pos, some opened, c :: cs =>
    if c = '\x7d' then
      let (paints, isOpen) := blockCommentPaint (pos + 1) none cs
      (⟨opened, pos + 1 - opened, commentStyle⟩ :: paints, isOpen)
    else blockCommentPaint (pos + 1) (some opened) cs

/-! ### Lines -/

/-- The paint of a line from position `start` on, and whether it leaves a comment open. -/
def restPaint (line : List Char) (start : Nat) : Except Abort (List Paint × Bool) :=
  let rest := line.drop start
  let tokens := (Lexer.ofChars rest).tokenization
  match tokens.abort? with
  | some abort => .error abort
  | none =>
    let (blocks, isOpen) := blockCommentPaint start none rest
    .ok (tokens.rows.flatMap (fun (_, token) => tokenPaint line start token) ++
      lineCommentPaint start rest ++ blocks, isOpen)

/-- The paint of a line, and whether it leaves a comment open; `inComment` tells whether
    the line before does. -/
def linePaint (inComment : Bool) (line : List Char) : Except Abort (List Paint × Bool) :=
  if inComment then
    match line.dropWhile (· ≠ '\x7d') with
    | [] => .ok ([⟨0, line.length, commentStyle⟩], true)
    | _ :: rest => do
      let start := line.length - rest.length
      let (paints, isOpen) ← restPaint line start
      return (⟨0, start, commentStyle⟩ :: paints, isOpen)
  else restPaint line 0

/-- The styles of a line after one more coat. -/
def coat (cells : List (Option Style)) (paint : Paint) : List (Option Style) :=
  cells.mapIdx fun i cell =>
    if paint.start ≤ i ∧ i < paint.start + paint.count then some paint.style else cell

/-- The styles of the characters of a line of the given length. -/
def styles (length : Nat) (paints : List Paint) : List (Option Style) :=
  paints.foldl coat (List.replicate length none)

/-- The longest stretches of equal style among cells that start at position `pos`. -/
def runs : Nat → List (Option Style) → List Paint
  | _, [] => []
  | pos, none :: cells => runs (pos + 1) cells
  | pos, some style :: cells =>
    match runs (pos + 1) cells with
    | [] => [⟨pos, 1, style⟩]
    | run :: rest =>
      if run.start = pos + 1 ∧ run.style = style then ⟨pos, run.count + 1, style⟩ :: rest
      else ⟨pos, 1, style⟩ :: run :: rest

/-- A styled line: its stretches of equal style, and whether it leaves a comment open. -/
structure StyledLine where
  runs : List Paint
  inComment : Bool
  deriving DecidableEq, Repr

/-- The styled lines of a text, the first one after a line that leaves a comment open or
    does not. -/
def highlightLines (inComment : Bool) : List (List Char) → Except Abort (List StyledLine)
  | [] => .ok []
  | line :: lines => do
    let (paints, isOpen) ← linePaint inComment line
    let rest ← highlightLines isOpen lines
    return ⟨runs 0 (styles line.length paints), isOpen⟩ :: rest

/-- The styled lines of a text. -/
def highlight (text : String) : Except Abort (List StyledLine) :=
  highlightLines false (text.toList.splitOn '\n')

end MiniPascal.Editor
