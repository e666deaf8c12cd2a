import BasicCompiler.Text.Alphanumeric
import BasicCompiler.Token.Kind
import BasicCompiler.Viewer.Span

/-!
# Highlighted BASIC

The look of a line of source text: comments, quoted texts, reserved words and numbers stand out
from the rest.
-/

namespace BasicCompiler.Viewer.SourceText

/-- The characters of words; a point joins the parts of a number. -/
def isWordCharacter (c : Char) : Bool :=
  Text.isAlphanumeric c || c == '.'

/-- The look of a word: reserved, beginning with a digit, or neither. -/
def wordStyle (word : List Char) : Style :=
  if (Keyword.ofSpelling? (String.ofList word)).isSome then
    (Style.colored Palette.keyword).emphasized
  else if word.head?.any Char.isDigit then Style.colored Palette.number
  else Style.colored Palette.text

/-- A comment reaches to the end of the line, a quoted text to its closing quote, a word as far as
its characters; every other character stands alone. -/
def highlighter : Highlighter := fun c cs =>
  if c = '#' then (Style.colored Palette.comment, cs.length)
  else if c = '"' then
    (Style.colored Palette.quotation, (cs.takeWhile (· != '"')).length + 1)
  else if isWordCharacter c then
    let others := cs.takeWhile isWordCharacter
    (wordStyle (c :: others), others.length)
  else (Style.colored Palette.text, 0)

/-- The spans of a line of source text. -/
def highlight (line : List Char) : List Span :=
  highlighter.spans line

end BasicCompiler.Viewer.SourceText
