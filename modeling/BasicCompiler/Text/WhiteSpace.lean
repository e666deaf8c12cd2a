/-!
# White space and trimming

The Unicode property White_Space, and the removal of white space from both ends of a text.
-/

namespace BasicCompiler.Text

/-- `isWhiteSpace c` tests for the property White_Space: the controls U+0009 to U+000D, the next
line control, and the space, line and paragraph separators. -/
def isWhiteSpace (c : Char) : Bool :=
  let point := c.toNat
  (0x9 ≤ point && point ≤ 0xd) || point == 0x20 || point == 0x85 || point == 0xa0 ||
    point == 0x1680 || (0x2000 ≤ point && point ≤ 0x200a) || point == 0x2028 ||
    point == 0x2029 || point == 0x202f || point == 0x205f || point == 0x3000

/-- The blanks of ASCII are white space. -/
theorem isWhiteSpace_of_isWhitespace {c : Char} (h : c.isWhitespace = true) :
    isWhiteSpace c = true := by
  simp only [Char.isWhitespace, Bool.or_eq_true, decide_eq_true_eq] at h
  rcases h with ((rfl | rfl) | rfl) | rfl
  all_goals rfl

/-- The text without the white space at its beginning. -/
def trimStart (text : List Char) : List Char :=
  text.dropWhile isWhiteSpace

/-- The text without the white space at its end. -/
def trimEnd (text : List Char) : List Char :=
  (trimStart text.reverse).reverse

/-- The text without the white space at its two ends; white space inside it stays. -/
def trim (text : String) : String :=
  String.ofList (trimEnd (trimStart text.toList))

end BasicCompiler.Text
