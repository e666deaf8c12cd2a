/-!
# Colours and styles

How a character on the screen looks. A style says only what it changes: a colour it does not name
is left as it was, and the same holds for the weight.
-/

namespace BasicCompiler.Viewer

/-- A colour of the screen. -/
inductive Color where
  | rgb (red green blue : UInt8)
  | white
  | black
deriving DecidableEq, Repr

/-- What is said about the look of some characters. -/
structure Style where
  foreground : Option Color
  background : Option Color
  bold : Bool
deriving DecidableEq, Repr

namespace Style

/-- The style that says nothing. -/
def plain : Style :=
  ⟨none, none, false⟩

/-- Characters of the given colour. -/
def colored (color : Color) : Style :=
  ⟨some color, none, false⟩

/-- The style on a background of the given colour. -/
def on (style : Style) (color : Color) : Style :=
  { style with background := some color }

/-- The style in bold. -/
def emphasized (style : Style) : Style :=
  { style with bold := true }

/-- The look of a character that has the style `under` and is then given the style `style`. -/
def applyTo (style under : Style) : Style :=
  ⟨style.foreground <|> under.foreground, style.background <|> under.background,
    style.bold || under.bold⟩

/-- On a character without a look a style is the whole look. -/
@[simp] theorem applyTo_plain (style : Style) : style.applyTo plain = style := by
  cases style with
  | mk foreground background bold =>
    cases foreground <;> cases background <;> simp [applyTo, plain]

end Style

/-! ## The palette -/

namespace Palette

/-- Ordinary text. -/
def text : Color := .rgb 0xcd 0xd6 0xf4

/-- Brackets. -/
def bracket : Color := .rgb 0x89 0xb4 0xfa

/-- Reserved words. -/
def keyword : Color := .rgb 0x89 0xb4 0xfa

/-- Comments, line numbers, and everything that stays in the background. -/
def comment : Color := .rgb 0x6c 0x70 0x86

/-- A good result. -/
def success : Color := .rgb 0xa6 0xe3 0xa1

/-- A bad result. -/
def error : Color := .rgb 0xf3 0x8b 0xa8

/-- Quoted texts. -/
def quotation : Color := .rgb 0xfa 0xb3 0x87

/-- Numbers. -/
def number : Color := .rgb 0xfa 0xb3 0x87

/-- Names of called functions. -/
def function : Color := .rgb 0xf9 0xe2 0xaf

/-- Names of types. -/
def typeName : Color := .rgb 0x94 0xe2 0xd5

/-- The border of the pane that has the focus. -/
def focusedBorder : Color := .rgb 0xf9 0xe2 0xaf

/-- The border of the other pane. -/
def border : Color := .rgb 0x6c 0x70 0x86

/-- The background of the status bar. -/
def bar : Color := .rgb 0x32 0x32 0x46

end Palette

end BasicCompiler.Viewer
