import BasicCompiler.Text.Location
import BasicCompiler.Token.Kind

/-!
# Tokens

A token is a piece of a program as the grammar sees it: its kind, its text, and the place where
it begins.
-/

namespace BasicCompiler

/-- A token. The text of a quoted text is what stands between the quotes, and the text of the end
of the input is empty; every other token carries the characters it was read from. -/
structure Token where
  kind : Kind
  text : String
  location : Location
deriving DecidableEq, Repr

namespace Token

/-- The token that marks the end of an input that ends at `location`. -/
def endOfInput (location : Location) : Token :=
  ⟨.endOfInput, "", location⟩

end Token

end BasicCompiler
