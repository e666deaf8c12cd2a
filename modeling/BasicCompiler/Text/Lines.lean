/-!
# The lines of a text

A line ends at a line feed or at the end of the text. A carriage return directly before the line
feed belongs to the line's end, and the empty piece behind a last line feed is no line.
-/

namespace BasicCompiler.Text

/-- The lines of a sequence of characters, without their ends. -/
def linesOf : List Char → List (List Char)
  | [] => []
  | '\n' :: rest => [] :: linesOf rest
  | '\r' :: '\n' :: rest => [] :: linesOf rest
  | c :: rest =>
    match linesOf rest with
    | [] => [[c]]
    | line :: more => (c :: line) :: more

/-- A character that belongs to no line's end stays in its place when the lines are put end to
end. -/
theorem flatten_linesOf_cons {c : Char} {rest : List Char} (feed : c ≠ '\n')
    (pair : ∀ more, c :: rest ≠ '\r' :: '\n' :: more) :
    (linesOf (c :: rest)).flatten = c :: (linesOf rest).flatten := by
  rw [linesOf]
  · cases linesOf rest <;> simp
  · simpa using feed
  · intro more start tail
    exact pair more (by rw [start, tail])

/-- Text without line feeds has no line ends to lose. -/
theorem flatten_linesOf {text : List Char} (h : '\n' ∉ text) : (linesOf text).flatten = text := by
  induction text with
  | nil => rfl
  | cons c rest ih =>
    rw [List.mem_cons, not_or] at h
    rw [flatten_linesOf_cons (Ne.symm h.1), ih h.2]
    intro more shape
    have tail := (List.cons.inj shape).2
    exact h.2 (by simp [tail])

/-- The lines of a text, without their ends. -/
def lines (text : String) : List (List Char) :=
  linesOf text.toList

end BasicCompiler.Text
