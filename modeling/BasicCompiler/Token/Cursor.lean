import BasicCompiler.Token.Lexeme

/-!
# Reading token by token

A cursor is a place in a source together with the text from there on. `Cursor.next` passes over
the trivia in front of the cursor (blanks, and a comment up to the end of its line) and reads one
lexeme. A fault does not stop the cursor: it stands behind the characters the fault took, and the
next call goes on there. At the end of the text the cursor stays where it is.
-/

namespace BasicCompiler

/-- The characters that separate tokens without being one. -/
def isBlank (c : Char) : Bool :=
  c == ' ' || c == '\t' || c == '\r'

/-- The trivia at the beginning of a text: blanks, and behind them a comment, which ends in front
of the line feed. -/
def trivia (cs : List Char) : List Char :=
  let blanks := cs.takeWhile isBlank
  match cs.dropWhile isBlank with
  | '#' :: rest => blanks ++ '#' :: rest.takeWhile (· != '\n')
  | _ => blanks

/-- The text behind its trivia. -/
def behindTrivia (cs : List Char) : List Char :=
  match cs.dropWhile isBlank with
  | '#' :: rest => rest.dropWhile (· != '\n')
  | rest => rest

/-- Trivia and what is behind them are together the text. -/
theorem trivia_append_behindTrivia (cs : List Char) : trivia cs ++ behindTrivia cs = cs := by
  have whole := cs.takeWhile_append_dropWhile (p := isBlank)
  unfold trivia behindTrivia
  split
  next rest h => simpa [h] using whole
  next => exact whole

/-- What is behind the trivia is at most as long as the text. -/
theorem length_behindTrivia_le (cs : List Char) : (behindTrivia cs).length ≤ cs.length := by
  have whole := congrArg List.length (trivia_append_behindTrivia cs)
  rw [List.length_append] at whole
  omega

/-- A place in a source and the text from there on. -/
structure Cursor where
  location : Location
  rest : List Char
deriving DecidableEq, Repr

namespace Cursor

/-- The cursor at the beginning of a source. -/
def ofSource (source : String) : Cursor :=
  ⟨.start, source.toList⟩

/-- The place behind the trivia in front of the cursor, where the next lexeme begins. -/
def lexemeStart (cursor : Cursor) : Location :=
  cursor.location.after (trivia cursor.rest)

/-- The cursor behind a lexeme that begins behind the trivia in front of it. -/
def behind (cursor : Cursor) (lexeme : Lexeme) : Cursor :=
  ⟨cursor.lexemeStart.after lexeme.taken, lexeme.rest⟩

/-- Read one lexeme: its token or diagnostic, and the cursor behind it. -/
def next (cursor : Cursor) : Except Diagnostic Token × Cursor :=
  match behindTrivia cursor.rest with
  | [] => (.ok (.endOfInput cursor.lexemeStart), ⟨cursor.lexemeStart, []⟩)
  | c :: cs => ((Lexeme.read c cs).result cursor.lexemeStart, cursor.behind (Lexeme.read c cs))

/-- With only trivia in front of it, a cursor reads the end of the input and stays there. -/
theorem next_of_eq_nil {cursor : Cursor} (h : behindTrivia cursor.rest = []) :
    cursor.next = (.ok (.endOfInput cursor.lexemeStart), ⟨cursor.lexemeStart, []⟩) := by
  rw [next, h]

/-- With a character behind the trivia, a cursor reads the lexeme that the character begins. -/
theorem next_of_eq_cons {cursor : Cursor} {c : Char} {cs : List Char}
    (h : behindTrivia cursor.rest = c :: cs) :
    cursor.next =
      ((Lexeme.read c cs).result cursor.lexemeStart, cursor.behind (Lexeme.read c cs)) := by
  rw [next, h]

/-- Reading a lexeme brings a cursor nearer to the end. -/
theorem length_rest_behind_lt {cursor : Cursor} {c : Char} {cs : List Char}
    (h : behindTrivia cursor.rest = c :: cs) :
    (cursor.behind (Lexeme.read c cs)).rest.length < cursor.rest.length := by
  have shorter := (Lexeme.covers_read c cs).length_rest_lt
  have bounded := length_behindTrivia_le cursor.rest
  rw [h] at bounded
  exact Nat.lt_of_lt_of_le shorter bounded

end Cursor

end BasicCompiler
