import BasicCompiler.Text.Alphanumeric
import BasicCompiler.Viewer.Span

/-!
# Highlighted C

The look of a line of generated C: directives, literals, types, reserved words, numbers, called
functions and brackets stand out from the rest.
-/

namespace BasicCompiler.Viewer.OutputText

/-- The characters of words; a point joins the parts of a number. -/
def isWordCharacter (c : Char) : Bool :=
  Text.isAlphanumeric c || c == '_' || c == '.'

/-- The names of types in generated C. -/
def typeNames : List String :=
  ["int", "float", "void"]

/-- The reserved words in generated C. -/
def keywords : List String :=
  ["if", "while", "goto", "return"]

/-- The look of a word. A word directly in front of an opening parenthesis is called. -/
def wordStyle (word : List Char) (called : Bool) : Style :=
  if String.ofList word ∈ typeNames then Style.colored Palette.typeName
  else if String.ofList word ∈ keywords then (Style.colored Palette.keyword).emphasized
  else if word.head?.any Char.isDigit then Style.colored Palette.number
  else if called then Style.colored Palette.function
  else Style.colored Palette.text

/-- The number of characters of a literal behind its opening quote, the closing quote included. A
backslash takes the character behind it along. -/
def literalLength : List Char → Nat
  | [] => 0
  | '"' :: _ => 1
  | '\\' :: _ :: rest => literalLength rest + 2
  | _ :: rest => literalLength rest + 1

/-- The brackets that stand out. -/
def isBracket (c : Char) : Bool :=
  c == '\x7b' || c == '\x7d' || c == '(' || c == ')'

/-- A literal reaches to its closing quote and a word as far as its characters; every other
character stands alone. -/
def highlighter : Highlighter := fun c cs =>
  if c = '"' then (Style.colored Palette.quotation, literalLength cs)
  else if isWordCharacter c then
    let others := cs.takeWhile isWordCharacter
    let called := (cs.dropWhile isWordCharacter).head? = some '('
    (wordStyle (c :: others) called, others.length)
  else if isBracket c then (Style.colored Palette.bracket, 0)
  else (Style.colored Palette.text, 0)

/-- The spans of a line of generated C. A directive is one span. -/
def highlight (line : List Char) : List Span :=
  match line with
  | '#' :: _ => [⟨line, Style.colored Palette.keyword⟩]
  | _ => highlighter.spans line

end BasicCompiler.Viewer.OutputText
