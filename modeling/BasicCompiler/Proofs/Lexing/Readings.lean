import BasicCompiler.Proofs.Lexing.Reading

/-!
# The readings of a source

`reading source i` is what the call number `i` of `Cursor.next` gives, tokens and faults alike.
There is no last one: behind the end of the input stands the end of the input. Read
`Cursor.reading_eq_getD` first: the stream of a source holds the readings up to the end.
-/

namespace BasicCompiler

/-- What reading from the cursor again and again gives, one result for each call. -/
def Cursor.reading (cursor : Cursor) : Nat → Except Diagnostic Token
  | 0 => cursor.next.1
  | i + 1 => cursor.next.2.reading i

/-- The readings of a whole source. -/
def reading (source : String) (i : Nat) : Except Diagnostic Token :=
  (Cursor.ofSource source).reading i

namespace Cursor

/-- The readings are those that the stream holds, and then the end of the input. -/
theorem reading_eq_getD (cursor : Cursor) (i : Nat) :
    cursor.reading i = (Stream.ofCursor cursor).pending.getD i
      (.ok (.endOfInput (Stream.ofCursor cursor).finish)) := by
  induction i generalizing cursor with
  | zero =>
    have hnext := Stream.next_ofCursor cursor
    rw [Stream.next] at hnext
    split at hnext
    · next hpending =>
      rw [hpending]
      exact (congrArg Prod.fst hnext).symm
    · next hpending =>
      rw [hpending]
      exact (congrArg Prod.fst hnext).symm
  | succ i ih =>
    have hnext := Stream.next_ofCursor cursor
    rw [reading, ih]
    rw [Stream.next] at hnext
    split at hnext
    · next hpending =>
      rw [← (Prod.mk.inj hnext).2, hpending]
      rfl
    · next hpending =>
      rw [← (Prod.mk.inj hnext).2, hpending]
      rfl

/-- A token that is read is one that the stream holds, unless it is the end of the input. -/
theorem mem_pending_of_reading {cursor : Cursor} {i : Nat} {token : Token}
    (h : cursor.reading i = .ok token) (hkind : token.kind ≠ .endOfInput) :
    .ok token ∈ (Stream.ofCursor cursor).pending := by
  rw [reading_eq_getD, List.getD_eq_getElem?_getD] at h
  cases hresult : (Stream.ofCursor cursor).pending[i]? with
  | none =>
    rw [hresult] at h
    cases h
    exact absurd rfl hkind
  | some result =>
    rw [hresult] at h
    cases h
    exact List.mem_of_getElem? hresult

/-- A fault is lexical. -/
theorem category_of_next {cursor : Cursor} {diagnostic : Diagnostic}
    (h : cursor.next.1 = .error diagnostic) : diagnostic.category = .lexical := by
  unfold next at h
  split at h
  · cases h
  · unfold Lexeme.result at h
    split at h
    · cases h
    · cases h
      rfl

/-- Every fault among the readings is lexical. -/
theorem category_of_reading {cursor : Cursor} {i : Nat} {diagnostic : Diagnostic}
    (h : cursor.reading i = .error diagnostic) : diagnostic.category = .lexical := by
  induction i generalizing cursor with
  | zero => exact category_of_next h
  | succ i ih => exact ih h

/-- Where tokens are read up to the end of the input, there is no fault. -/
theorem Reads.exists_token {cursor : Cursor} {tokens : List Token} (h : cursor.Reads tokens)
    (i : Nat) : ∃ token, cursor.reading i = .ok token := by
  obtain ⟨front, hpending, -⟩ := reads_iff_pending.mp h
  rw [reading_eq_getD, hpending, List.getD_eq_getElem?_getD, List.getElem?_map]
  cases front[i]? with
  | none => exact ⟨_, rfl⟩
  | some token => exact ⟨token, rfl⟩

/-- The tokens that are read without a fault are the first readings. -/
theorem Reads.reading_eq {cursor : Cursor} {tokens : List Token} (h : cursor.Reads tokens)
    {i : Nat} {token : Token} (htoken : tokens[i]? = some token) :
    cursor.reading i = .ok token := by
  induction h generalizing i with
  | finish h _ =>
    cases i with
    | zero =>
      cases htoken
      rw [reading, h]
    | succ i => cases htoken
  | token h _ _ ih =>
    cases i with
    | zero =>
      cases htoken
      rw [reading, h]
    | succ i =>
      rw [reading, h]
      exact ih htoken

end Cursor

end BasicCompiler
