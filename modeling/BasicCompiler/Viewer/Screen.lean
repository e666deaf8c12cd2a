import BasicCompiler.Text.Lines
import BasicCompiler.Viewer.Span

/-!
# Screens

A screen is a list of rows and a row a list of cells, one character each. Rows are built to an
exact width: `Row.left` and `Row.right` cut what does not fit and fill what is left free, so
screens of known sizes can be put beside and above each other.

It is assumed that every character takes exactly one cell. This is what a terminal does with
letters, digits and signs of most scripts; wide characters take two cells there, and characters
that combine with others or control the terminal take none. So the cells of a row are as stated for
texts of the first kind, while what is said about the spans that a row is made from, and about the
number of rows, holds for all texts.
-/

namespace BasicCompiler.Viewer

/-- A character on the screen and its look. -/
structure Cell where
  symbol : Char
  style : Style
deriving DecidableEq, Repr

/-- A row of cells, from left to right. -/
abbrev Row := List Cell

/-- Rows, from top to bottom. -/
abbrev Screen := List Row

/-- An empty cell of the given look. -/
def Cell.blank (base : Style) : Cell :=
  ⟨' ', base⟩

/-- The cells of a span on a ground of the look `base`. The lines of its text are put end to end:
the ends of lines have no cells. -/
def Span.cells (base : Style) (span : Span) : List Cell :=
  (Text.linesOf span.text).flatten.map fun c => ⟨c, span.style.applyTo base⟩

/-- A span of a single line has a cell for every character. -/
theorem Span.cells_of_line (base : Style) (span : Span) (line : '\n' ∉ span.text) :
    span.cells base = span.text.map fun c => ⟨c, span.style.applyTo base⟩ := by
  rw [cells, Text.flatten_linesOf line]

namespace Row

/-- The part of some spans that fits into `width` cells. -/
def fitted (width : Nat) (base : Style) (spans : List Span) : Row :=
  (spans.flatMap (Span.cells base)).take width

/-- Empty cells beside some that are there. -/
def filling (width : Nat) (base : Style) (cells : Row) : Row :=
  List.replicate (width - cells.length) (Cell.blank base)

/-- A row that begins with the spans. -/
def left (width : Nat) (base : Style) (spans : List Span) : Row :=
  let cells := fitted width base spans
  cells ++ filling width base cells

/-- A row that ends with the spans; what does not fit is cut at the end all the same. -/
def right (width : Nat) (base : Style) (spans : List Span) : Row :=
  let cells := fitted width base spans
  filling width base cells ++ cells

/-- What fits is not wider than the row. -/
theorem length_fitted_le (width : Nat) (base : Style) (spans : List Span) :
    (fitted width base spans).length ≤ width := by
  simp only [fitted, List.length_take]
  omega

/-- A row that begins with spans has its exact width. -/
@[simp] theorem length_left (width : Nat) (base : Style) (spans : List Span) :
    (left width base spans).length = width := by
  have fits := length_fitted_le width base spans
  simp only [left, filling, List.length_append, List.length_replicate]
  omega

/-- A row that ends with spans has its exact width. -/
@[simp] theorem length_right (width : Nat) (base : Style) (spans : List Span) :
    (right width base spans).length = width := by
  have fits := length_fitted_le width base spans
  simp only [right, filling, List.length_append, List.length_replicate]
  omega

end Row

namespace Screen

/-- The lines, from the top, in a screen of `height` rows of `width` cells. -/
def ofLines (width height : Nat) (base : Style) (lines : List (List Span)) : Screen :=
  let rows := (lines.take height).map (Row.left width base)
  rows ++ List.replicate (height - rows.length) (Row.left width base [])

/-- Two screens side by side. -/
def beside (left right : Screen) : Screen :=
  List.zipWith (· ++ ·) left right

end Screen

end BasicCompiler.Viewer
