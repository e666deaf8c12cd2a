import BasicCompiler.Text.Lines
import BasicCompiler.Viewer.OutputText
import BasicCompiler.Viewer.Screen
import BasicCompiler.Viewer.SourceText

/-!
# Panes

A pane is a bordered part of the screen that shows a window of some lines. The window begins at a
scroll offset, which `clampScroll` keeps small enough for the last page to be full. There are two
panes: one for the source, with line numbers and the offending line marked, and one for the
generated C.

Borders are drawn as a terminal library draws them around a block, with the title over the upper
one. As for all rows, it is assumed that every character takes exactly one cell.
-/

namespace BasicCompiler.Viewer

/-! ## Scrolling -/

/-- The number of lines between the borders of a pane; a pane that is too low counts as having
one. -/
def pageHeight (height : Nat) : Nat :=
  max 1 (height - 2)

/-- The offset nearest to `scroll` at which a pane of the given height shows a full page of
`count` lines, or all of them. -/
def clampScroll (count height scroll : Nat) : Nat :=
  min scroll (count - pageHeight height)

/-- The lines that a pane of the given height shows from an offset on. -/
def page {α : Type} (lines : List α) (height scroll : Nat) : List α :=
  (lines.drop scroll).take (pageHeight height)

/-! ## Borders -/

/-- The look of a border shows which pane has the focus. -/
def borderStyle (focused : Bool) : Style :=
  if focused then (Style.colored Palette.focusedBorder).emphasized
  else Style.colored Palette.border

/-- A row of border: its two ends and what is between them. If there is no room for both ends the
first one is shown. -/
def borderRow (width : Nat) (style : Style) (first last : Char) (middle : Nat → Row) : Row :=
  match width with
  | 0 => []
  | 1 => [⟨first, style⟩]
  | inner + 2 => ⟨first, style⟩ :: middle inner ++ [⟨last, style⟩]

/-- A horizontal line with a title at its beginning. -/
def titledLine (style : Style) (title : String) (width : Nat) : Row :=
  let cells := (title.toList.take width).map (Cell.mk · style)
  cells ++ List.replicate (width - cells.length) ⟨'─', style⟩

/-- A bordered pane of the given size. If there is no room for both horizontal borders the upper
one is shown. -/
def bordered (title : String) (focused : Bool) (base : Style) (lines : List (List Span))
    (width height : Nat) : Screen :=
  let style := (borderStyle focused).applyTo base
  let top := borderRow width style '┌' '┐' (titledLine style title)
  let bottom := borderRow width style '└' '┘' (titledLine style "")
  match height with
  | 0 => []
  | 1 => [top]
  | inner + 2 =>
    let rows := (Screen.ofLines (width - 2) inner base lines).map fun row =>
      borderRow width style '│' '│' fun _ => row
    top :: rows ++ [bottom]

/-! ## The source pane -/

/-- A line number, set right in four columns, and a space. -/
def lineNumber (number : Nat) : List Char :=
  let digits := Nat.toDigits 10 number
  List.replicate (4 - digits.length) ' ' ++ digits ++ [' ']

/-- The look of the offending line. -/
def errorStyle : Style :=
  ((Style.colored .white).on Palette.error).emphasized

/-- A line of source with its number. The offending line is marked as a whole; every other line is
highlighted. -/
def sourceLine (errorLine : Option Nat) (number : Nat) (line : List Char) : List Span :=
  if errorLine = some number then
    [⟨lineNumber number, (Style.colored Palette.error).emphasized⟩, ⟨line, errorStyle⟩]
  else
    ⟨lineNumber number, Style.colored Palette.comment⟩ :: SourceText.highlight line

/-- The lines of a source with their numbers, which begin at one. -/
def numberedLines (source : String) : List (Nat × List Char) :=
  ((Text.lines source).zipIdx 1).map Prod.swap

/-- The offset at which a source is shown. -/
def clampSource (source : String) (height scroll : Nat) : Nat :=
  clampScroll (Text.lines source).length height scroll

/-- The source pane, drawn at an offset that is not beyond the last page. -/
def sourcePane (source : String) (errorLine : Option Nat) (focused : Bool)
    (scroll width height : Nat) : Screen :=
  let lines := (page (numberedLines source) height scroll).map fun (number, line) =>
    sourceLine errorLine number line
  bordered " Source " focused .plain lines width height

/-! ## The output pane -/

/-- The offset at which output is shown; without output there is nothing to scroll. -/
def clampOutput (output : Option String) (height scroll : Nat) : Nat :=
  match output with
  | some text => clampScroll (Text.lines text).length height scroll
  | none => scroll

/-- The output pane, drawn at an offset that is not beyond the last page; without output it says
so. -/
def outputPane (output : Option String) (focused : Bool) (scroll width height : Nat) : Screen :=
  let title := " Generated C "
  match output with
  | none =>
    bordered title focused (Style.colored Palette.comment) [[⟨"(no output)".toList, .plain⟩]]
      width height
  | some text =>
    let lines := (page (Text.lines text) height scroll).map OutputText.highlight
    bordered title focused .plain lines width height

end BasicCompiler.Viewer
