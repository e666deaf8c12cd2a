/-!
# Places in a source text

Lines and columns are counted from one, and a column is a number of characters. `Location.advance`
moves a location over one character and `Location.after` over a stretch of text; the order of
locations is the order in which a reader meets them.
-/

namespace BasicCompiler

/-- A place in a source text: a line, and a character in that line, both counted from one. -/
structure Location where
  line : Nat
  column : Nat
deriving DecidableEq, Repr

namespace Location

/-- The place of the first character of a text. -/
def start : Location :=
  ⟨1, 1⟩

/-- The place behind the character `c` that stands at `location`. -/
def advance (location : Location) (c : Char) : Location :=
  if c = '\n' then ⟨location.line + 1, 1⟩ else ⟨location.line, location.column + 1⟩

/-- The place behind the stretch of text that begins at `location`. -/
def after (location : Location) (text : List Char) : Location :=
  text.foldl advance location

/-- Locations are compared by line and, in one line, by column. -/
instance : LT Location where
  lt a b := a.line < b.line ∨ a.line = b.line ∧ a.column < b.column

/-- The order of locations is decidable by comparisons of numbers. -/
instance (a b : Location) : Decidable (a < b) :=
  inferInstanceAs (Decidable (_ ∨ _))

/-- Nothing lies between a location and the place behind the empty stretch. -/
@[simp] theorem after_nil (location : Location) : location.after [] = location := rfl

/-- A stretch is passed character by character. -/
@[simp] theorem after_cons (location : Location) (c : Char) (text : List Char) :
    location.after (c :: text) = (location.advance c).after text := rfl

/-- Two stretches in a row are passed one after the other. -/
theorem after_append (location : Location) (first second : List Char) :
    location.after (first ++ second) = (location.after first).after second := by
  simp [after]

end Location

end BasicCompiler
