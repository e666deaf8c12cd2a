import BasicCompiler.Viewer.Screen

/-!
# The status bar

The bar at the bottom of the screen: at the left the result of the compilation, at the right the
keys.
-/

namespace BasicCompiler.Viewer.StatusBar

/-- The ground of the bar. -/
def ground : Style :=
  Style.plain.on Palette.bar

/-- Text on the bar. -/
def onBar (color : Color) : Style :=
  (Style.colored color).on Palette.bar

/-- A badge for the result, and the message. -/
def result (message : String) (isError : Bool) : List Span :=
  let badge := if isError then " ERROR " else " OK "
  let badgeColor := if isError then Palette.error else Palette.success
  let messageColor := if isError then Palette.error else Palette.text
  [⟨badge.toList, ((Style.colored .black).on badgeColor).emphasized⟩,
    ⟨" | ".toList, onBar Palette.comment⟩,
    ⟨(" " ++ message ++ " ").toList, onBar messageColor⟩]

/-- A key, drawn as a key cap. -/
def keyCap (key : String) : Span :=
  ⟨key.toList, (Style.colored .black).on Palette.comment⟩

/-- What a key does. -/
def purpose (text : String) : Span :=
  ⟨text.toList, onBar Palette.text⟩

/-- The mark between two keys. -/
def separator : List Span :=
  [⟨['│'], onBar Palette.comment⟩, purpose " "]

/-- The keys and what they do. -/
def keys : List Span :=
  [keyCap " ⇥ ", purpose " focus "] ++ separator ++
    [keyCap " ↑/↓ ", purpose " scroll "] ++ separator ++
    [keyCap " PgUp/PgDn ", purpose " page "] ++ separator ++
    [keyCap "q", purpose " quit "]

/-- The width of the left part: six tenths of the bar, a half rounded up. -/
def resultWidth (width : Nat) : Nat :=
  (6 * width + 5) / 10

/-- The row of the bar that holds its text. -/
def textRow (message : String) (isError : Bool) (width : Nat) : Row :=
  Row.left (resultWidth width) ground (result message isError) ++
    Row.right (width - resultWidth width) ground keys

/-- The bar in the given size; the text is in its first row. -/
def draw (message : String) (isError : Bool) (width height : Nat) : Screen :=
  match height with
  | 0 => []
  | rest + 1 => textRow message isError width :: List.replicate rest (Row.left width ground [])

end BasicCompiler.Viewer.StatusBar
