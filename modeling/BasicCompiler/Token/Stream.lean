import BasicCompiler.Token.Cursor

/-!
# Token streams

A stream is a source that has been read to its end: the results of reading, faults included, and
the place where the source ends. It is consumed from the front and never runs dry, because behind
the last result it gives the end of the input again and again. Read `Stream.next_ofCursor` first:
consuming a stream gives what reading token by token gives.
-/

namespace BasicCompiler

/-- What reading a source still has to deliver: its `pending` results in order, none of which is
the end of the input, and the place of the end. -/
structure Stream where
  pending : List (Except Diagnostic Token)
  finish : Location

namespace Stream

/-- Read everything in front of a cursor. -/
def ofCursor (cursor : Cursor) : Stream :=
  match _text : behindTrivia cursor.rest with
  | [] => ⟨[], cursor.lexemeStart⟩
  | c :: cs =>
    let stream := ofCursor (cursor.behind (Lexeme.read c cs))
    ⟨(Lexeme.read c cs).result cursor.lexemeStart :: stream.pending, stream.finish⟩
termination_by cursor.rest.length
decreasing_by exact Cursor.length_rest_behind_lt _text

/-- Read a whole source. -/
def ofSource (source : String) : Stream :=
  ofCursor (.ofSource source)

/-- Take one result from the front; behind the last one stands the end of the input. -/
def next (stream : Stream) : Except Diagnostic Token × Stream :=
  match stream.pending with
  | [] => (.ok (.endOfInput stream.finish), stream)
  | result :: pending => (result, ⟨pending, stream.finish⟩)

/-- Take the next `count` results. -/
def take (stream : Stream) : Nat → List (Except Diagnostic Token) × Stream
  | 0 => ([], stream)
  | count + 1 =>
    let (result, stream) := stream.next
    let (results, stream) := stream.take count
    (result :: results, stream)

/-- With only trivia in front of the cursor nothing is pending. -/
theorem ofCursor_of_eq_nil {cursor : Cursor} (h : behindTrivia cursor.rest = []) :
    ofCursor cursor = ⟨[], cursor.lexemeStart⟩ := by
  rw [ofCursor]
  split
  next => rfl
  next c cs h' => simp [h] at h'

/-- The first lexeme in front of the cursor is the first one pending. -/
theorem ofCursor_of_eq_cons {cursor : Cursor} {c : Char} {cs : List Char}
    (h : behindTrivia cursor.rest = c :: cs) :
    ofCursor cursor =
      ⟨(Lexeme.read c cs).result cursor.lexemeStart ::
          (ofCursor (cursor.behind (Lexeme.read c cs))).pending,
        (ofCursor (cursor.behind (Lexeme.read c cs))).finish⟩ := by
  rw [ofCursor]
  split
  next h' => simp [h] at h'
  next c' cs' h' =>
    obtain ⟨rfl, rfl⟩ := List.cons.inj (h.symm.trans h')
    rfl

/-- Consuming a stream gives what reading token by token gives. -/
theorem next_ofCursor (cursor : Cursor) :
    (ofCursor cursor).next = (cursor.next.1, ofCursor cursor.next.2) := by
  cases h : behindTrivia cursor.rest with
  | nil =>
    have stays : behindTrivia (Cursor.mk cursor.lexemeStart []).rest = [] := rfl
    rw [Cursor.next_of_eq_nil h, ofCursor_of_eq_nil h, ofCursor_of_eq_nil stays]
    rfl
  | cons c cs =>
    rw [Cursor.next_of_eq_cons h, ofCursor_of_eq_cons h]
    rfl

end Stream

end BasicCompiler
