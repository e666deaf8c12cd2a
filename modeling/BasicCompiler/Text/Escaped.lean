import BasicCompiler.Text.GraphemeExtend
import BasicCompiler.Text.Unprintable

/-!
# Characters shown in messages

A character that a message quotes has to be recognisable in it. The quotes, the backslash and four
controls are written as a backslash and a letter; a character that has no shape of its own is
written as its code point; every other character stands for itself.
-/

namespace BasicCompiler.Text

/-- The lower-case hexadecimal digits of a code point, without leading zeros. -/
def hexDigits (c : Char) : List Char :=
  Nat.toDigits 16 c.toNat

/-- The character written by its code point, as in `\u{200b}`. -/
def codePointEscape (c : Char) : List Char :=
  ['\\', 'u', '\x7b'] ++ hexDigits c ++ ['\x7d']

/-- `escaped c` is the form in which a message quotes the character `c`. -/
def escaped (c : Char) : String :=
  String.ofList <|
    if c = '\x00' then ['\\', '0']
    else if c = '\t' then ['\\', 't']
    else if c = '\r' then ['\\', 'r']
    else if c = '\n' then ['\\', 'n']
    else if c = '\\' ∨ c = '\'' ∨ c = '"' then ['\\', c]
    else if extendsGrapheme c || isUnprintable c then codePointEscape c
    else [c]

end BasicCompiler.Text
