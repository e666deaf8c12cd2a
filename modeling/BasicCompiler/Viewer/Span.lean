import BasicCompiler.Viewer.Style

/-!
# Highlighting

A span is a stretch of text in one style. A highlighter says of the character in front which style
it begins and how far that style reaches; `Highlighter.spans` cuts a line accordingly. Whatever
the highlighter says, the spans put together are the line (`Highlighter.flatMap_text_spans`) and
none of them is empty (`Highlighter.text_ne_nil`).
-/

namespace BasicCompiler.Viewer

/-- A stretch of text in one style. -/
structure Span where
  text : List Char
  style : Style
deriving DecidableEq, Repr

/-- The style that begins at a character, given the characters behind it, and the number of those
that it reaches over. A number beyond the end of the line stands for the end. -/
abbrev Highlighter := Char → List Char → Style × Nat

namespace Highlighter

/-- The spans of a line. -/
def spans (highlighter : Highlighter) : List Char → List Span
  | [] => []
  | c :: cs =>
    let (style, length) := highlighter c cs
    ⟨c :: cs.take length, style⟩ :: spans highlighter (cs.drop length)
termination_by line => line.length
decreasing_by
  simp only [List.length_drop, List.length_cons]
  omega

/-- Highlighting does not alter the text of a line. -/
theorem flatMap_text_spans (highlighter : Highlighter) (line : List Char) :
    (highlighter.spans line).flatMap Span.text = line := by
  fun_induction spans with
  | case1 => rfl
  | case2 c cs style length _ ih => simp [ih]

/-- No span is empty. -/
theorem text_ne_nil (highlighter : Highlighter) (line : List Char) :
    ∀ span ∈ highlighter.spans line, span.text ≠ [] := by
  fun_induction spans with
  | case1 => simp
  | case2 c cs style length _ ih => simpa using ih

end Highlighter

end BasicCompiler.Viewer
