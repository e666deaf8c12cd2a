import BasicCompiler.Compiler.Basic
import BasicCompiler.Viewer.Pane
import BasicCompiler.Viewer.Size
import BasicCompiler.Viewer.StatusBar

/-!
# The viewer

The viewer shows a source beside what the compiler makes of it. Its state is the source, the
generated C or the diagnostic in its stead, the message about them, which pane has the focus, the
two scroll offsets, and whether it was asked to quit; keys change the state, and drawing a frame
brings the offsets back to the last page.
-/

namespace BasicCompiler

namespace Viewer

/-- The two panes that can have the focus. -/
inductive Focus where
  | source | output
deriving DecidableEq, Repr

/-- The pane that gets the focus next. -/
def Focus.other : Focus → Focus
  | source => output
  | output => source

/-- The keys of a keyboard. -/
inductive Key where
  | character (c : Char)
  | function (number : Nat)
  | escape | tab | backTab | enter | delete
  | up | down | left | right | pageUp | pageDown | home | last
deriving DecidableEq, Repr

/-- What a key can ask of the viewer. -/
inductive Command where
  | quit
  | switchFocus
  | scrollUp (count : Nat)
  | scrollDown (count : Nat)
  | scrollHome
deriving DecidableEq, Repr

/-- The number of lines that the page keys scroll by. -/
def pageStep : Nat :=
  10

/-- What a key asks for; most keys ask for nothing. -/
def Key.command? : Key → Option Command
  | .character 'q' | .character 'Q' | .escape => some .quit
  | .tab | .backTab => some .switchFocus
  | .up => some (.scrollUp 1)
  | .down => some (.scrollDown 1)
  | .pageUp => some (.scrollUp pageStep)
  | .pageDown => some (.scrollDown pageStep)
  | .home => some .scrollHome
  | _ => none

/-- The largest scroll offset. -/
def maxScroll : Nat :=
  UInt64.size - 1

/-- How a command changes the offset of the pane that has the focus. Offsets stay between zero and
the largest one. -/
def Command.rescroll (scroll : Nat) : Command → Nat
  | scrollUp count => scroll - count
  | scrollDown count => min (scroll + count) maxScroll
  | scrollHome => 0
  | quit | switchFocus => scroll

/-- The number of lines shown above an offending line when the viewer opens. -/
def leadingLines : Nat :=
  3

end Viewer

open Viewer

/-- The state of the viewer: what it shows, which are the source, the generated C if there is any,
what was wrong with the source if anything was, and the message in the status bar; and how it shows
it. -/
structure Viewer where
  source : String
  output? : Option String
  diagnostic? : Option Diagnostic
  statusMessage : String
  focus : Focus
  sourceScroll : Nat
  outputScroll : Nat
  quit : Bool

namespace Viewer

/-- The offending line, if there is one. -/
def errorLine? (viewer : Viewer) : Option Nat :=
  viewer.diagnostic?.map fun diagnostic => diagnostic.location.line

/-- The message about generated C. -/
def successMessage (text : String) : String :=
  "Compiled successfully: " ++ toString (Text.lines text).length ++ " lines of C"

/-- The offset at which a source with an offence in the given line is opened. -/
def openingScroll (line : Nat) : Nat :=
  line - 1 - leadingLines

/-- The viewer on a source that was compiled, or was not: it is scrolled to the offending line if
there is one. -/
def ofResult (source : String) : Except Diagnostic String → Viewer
  | .ok text =>
    { source, output? := some text, diagnostic? := none, statusMessage := successMessage text,
      focus := .source, sourceScroll := 0, outputScroll := 0, quit := false }
  | .error diagnostic =>
    { source, output? := none, diagnostic? := some diagnostic, statusMessage := diagnostic.message,
      focus := .source, sourceScroll := openingScroll diagnostic.location.line, outputScroll := 0,
      quit := false }

/-- Open the viewer on a source. -/
def ofSource (source : String) : Viewer :=
  ofResult source (compile source)

/-- Set the offset of a pane. -/
def scrollTo (viewer : Viewer) (pane : Focus) (scroll : Nat) : Viewer :=
  match pane with
  | .source => { viewer with sourceScroll := scroll }
  | .output => { viewer with outputScroll := scroll }

/-- The offset of a pane. -/
def scroll (viewer : Viewer) : Focus → Nat
  | .source => viewer.sourceScroll
  | .output => viewer.outputScroll

/-- Do what a key asked for. -/
def obey (viewer : Viewer) (command : Command) : Viewer :=
  match command with
  | .quit => { viewer with quit := true }
  | .switchFocus => { viewer with focus := viewer.focus.other }
  | .scrollUp _ | .scrollDown _ | .scrollHome =>
    viewer.scrollTo viewer.focus (command.rescroll (viewer.scroll viewer.focus))

/-- React to a key. -/
def press (viewer : Viewer) (key : Key) : Viewer :=
  match key.command? with
  | some command => viewer.obey command
  | none => viewer

/-- Bring the offsets back to the last page of panes of the given height. -/
def clamped (viewer : Viewer) (height : Nat) : Viewer :=
  { viewer with
    sourceScroll := clampSource viewer.source height viewer.sourceScroll
    outputScroll := clampOutput viewer.output? height viewer.outputScroll }

/-- The frame of a viewer whose offsets are not beyond the last page: the two panes side by side,
the source pane with the odd column, above a status bar of one row. -/
def frame (viewer : Viewer) (width height : Nat) : Screen :=
  let paneHeight := height - 1
  let leftWidth := (width + 1) / 2
  let left := sourcePane viewer.source viewer.errorLine? (viewer.focus = .source)
    viewer.sourceScroll leftWidth paneHeight
  let right := outputPane viewer.output? (viewer.focus = .output) viewer.outputScroll
    (width - leftWidth) paneHeight
  let bar := StatusBar.draw viewer.statusMessage viewer.diagnostic?.isSome width
    (height - paneHeight)
  left.beside right ++ bar

/-- Draw a frame of the given size, or of the largest one that a screen can have in its stead: the
screen, and the viewer with its offsets brought back. -/
def draw (viewer : Viewer) (size : Size) : Screen × Viewer :=
  let size := size.limited
  let viewer := viewer.clamped (size.height - 1)
  (viewer.frame size.width size.height, viewer)

end Viewer

end BasicCompiler
