import BasicCompiler.Proofs.Lexing.Terminal

/-!
# Reading a source to its end

`Cursor.Reads` says what repeated reading of one source gives when no fault is met. It is stated
over single calls of `Cursor.next`; `Cursor.reads_iff_pending` shows that the stream of the source
holds the same tokens, and `scan` reads the same terminals without counting places.
-/

namespace BasicCompiler

namespace Cursor

/-- Reading from the cursor again and again gives these tokens, of which the last one, and no
other, is the end of the input. There is no fault among the readings. -/
inductive Reads : Cursor → List Token → Prop where
  | finish {cursor after : Cursor} {token : Token} (h : cursor.next = (.ok token, after))
      (hkind : token.kind = .endOfInput) : Reads cursor [token]
  | token {cursor after : Cursor} {token : Token} {tokens : List Token}
      (h : cursor.next = (.ok token, after)) (hkind : token.kind ≠ .endOfInput)
      (more : Reads after tokens) : Reads cursor (token :: tokens)

/-- With only trivia in front, the end of the input is all that is read. -/
theorem reads_of_eq_nil {cursor : Cursor} (text : behindTrivia cursor.rest = [])
    {tokens : List Token} : cursor.Reads tokens ↔ tokens = [.endOfInput cursor.lexemeStart] := by
  have next := next_of_eq_nil text
  constructor
  · intro h
    cases h with
    | finish h _ =>
      rw [next] at h
      cases h
      rfl
    | token h hkind _ =>
      rw [next] at h
      cases h
      exact absurd rfl hkind
  · intro hsame
    subst hsame
    exact .finish next rfl

/-- With a lexeme in front, its token is read first, unless it is a fault. -/
theorem reads_of_eq_cons {cursor : Cursor} {c : Char} {cs : List Char}
    (text : behindTrivia cursor.rest = c :: cs) {tokens : List Token} :
    cursor.Reads tokens ↔ ∃ kind word others,
      (Lexeme.read c cs).reading = .ok (kind, word) ∧
        tokens = ⟨kind, word, cursor.lexemeStart⟩ :: others ∧
        (cursor.behind (Lexeme.read c cs)).Reads others := by
  have next := next_of_eq_cons text
  unfold Lexeme.result at next
  cases reading : (Lexeme.read c cs).reading with
  | error fault =>
    rw [reading] at next
    constructor
    · intro h
      cases h with
      | finish h _ => simp [next] at h
      | token h _ _ => simp [next] at h
    · intro h
      obtain ⟨_, _, _, ⟨⟩, _⟩ := h
  | ok accepted =>
    obtain ⟨kind, word⟩ := accepted
    rw [reading] at next
    have hkind := (Lexeme.isSound_read c cs kind word reading).2
    constructor
    · intro h
      cases h with
      | finish h hend =>
        rw [next] at h
        cases h
        exact absurd hend hkind
      | token h _ more =>
        rw [next] at h
        cases h
        exact ⟨kind, word, _, rfl, rfl, more⟩
    · intro h
      obtain ⟨_, _, others, ⟨⟩, rfl, more⟩ := h
      exact .token next hkind more

/-- What holds with only trivia in front, and in front of a lexeme if it holds behind it, holds of
every cursor. -/
theorem induction_on {motive : Cursor → Prop} (cursor : Cursor)
    (finish : ∀ cursor, behindTrivia cursor.rest = [] → motive cursor)
    (lexeme : ∀ cursor c cs, behindTrivia cursor.rest = c :: cs →
      motive (cursor.behind (Lexeme.read c cs)) → motive cursor) : motive cursor := by
  fun_induction Stream.ofCursor cursor with
  | case1 cursor text => exact finish cursor text
  | case2 cursor c cs text stream ih => exact lexeme cursor c cs text ih

/-- Everything a source is read into is well-formed. -/
theorem Reads.wellFormed {cursor : Cursor} {tokens : List Token} (h : cursor.Reads tokens) :
    ∀ token ∈ tokens, token.terminal.WellFormed := by
  induction cursor using induction_on generalizing tokens with
  | finish cursor text =>
    obtain rfl := (reads_of_eq_nil text).mp h
    intro token hmem
    rw [List.mem_singleton.mp hmem]
    exact rfl
  | lexeme cursor c cs text ih =>
    obtain ⟨kind, word, others, reading, rfl, more⟩ := (reads_of_eq_cons text).mp h
    intro token hmem
    rcases List.mem_cons.mp hmem with rfl | hmem
    · exact (Lexeme.isSound_read c cs kind word reading).1
    · exact ih more token hmem

/-- A cursor is read into one list of tokens at most. -/
theorem Reads.unique {cursor : Cursor} {tokens others : List Token} (h : cursor.Reads tokens)
    (hother : cursor.Reads others) : tokens = others := by
  induction cursor using induction_on generalizing tokens others with
  | finish cursor text =>
    rw [(reads_of_eq_nil text).mp h, (reads_of_eq_nil text).mp hother]
  | lexeme cursor c cs text ih =>
    obtain ⟨kind, word, _, reading, rfl, more⟩ := (reads_of_eq_cons text).mp h
    obtain ⟨kind', word', _, reading', rfl, more'⟩ := (reads_of_eq_cons text).mp hother
    rw [reading] at reading'
    cases reading'
    rw [ih more more']

/-- Reading token by token and reading the whole source at once give the same tokens. -/
theorem reads_iff_pending {cursor : Cursor} {tokens : List Token} :
    cursor.Reads tokens ↔ ∃ front, (Stream.ofCursor cursor).pending = front.map .ok ∧
      tokens = front ++ [.endOfInput (Stream.ofCursor cursor).finish] := by
  induction cursor using induction_on generalizing tokens with
  | finish cursor text =>
    rw [Stream.ofCursor_of_eq_nil text, reads_of_eq_nil text]
    constructor
    · intro hsame
      subst hsame
      exact ⟨[], rfl, rfl⟩
    · intro h
      obtain ⟨front, hfront, rfl⟩ := h
      obtain rfl := List.map_eq_nil_iff.mp hfront.symm
      rfl
  | lexeme cursor c cs text ih =>
    rw [Stream.ofCursor_of_eq_cons text, reads_of_eq_cons text]
    constructor
    · intro h
      obtain ⟨kind, word, others, reading, rfl, more⟩ := h
      obtain ⟨front, hfront, rfl⟩ := ih.mp more
      refine ⟨⟨kind, word, cursor.lexemeStart⟩ :: front, ?_, rfl⟩
      rw [hfront, Lexeme.result, reading]
      rfl
    · intro h
      obtain ⟨front, hfront, rfl⟩ := h
      cases front with
      | nil => cases hfront
      | cons token front =>
        obtain ⟨first, others⟩ := List.cons.inj hfront
        unfold Lexeme.result at first
        split at first
        · next kind word reading =>
          cases first
          exact ⟨kind, word, _, reading, rfl, ih.mpr ⟨front, others, rfl⟩⟩
        · cases first

end Cursor

/-! ## Reading without places -/

/-- The terminals and faults of a text, in order. -/
def scan (cs : List Char) : List (Except LexicalFault Terminal) :=
  match _text : behindTrivia cs with
  | [] => []
  | c :: more =>
    (Lexeme.read c more).reading.map (fun reading => ⟨reading.1, reading.2⟩) ::
      scan (Lexeme.read c more).rest
termination_by cs.length
decreasing_by exact @Cursor.length_rest_behind_lt ⟨.start, cs⟩ _ _ _text

/-- Behind the trivia nothing is left: nothing is read. -/
theorem scan_of_eq_nil {cs : List Char} (h : behindTrivia cs = []) : scan cs = [] := by
  rw [scan]
  split
  next => rfl
  next c more h' => simp [h] at h'

/-- A lexeme is read, and then the text behind it. -/
theorem scan_of_eq_cons {cs more : List Char} {c : Char} (h : behindTrivia cs = c :: more) :
    scan cs = (Lexeme.read c more).reading.map (fun reading => ⟨reading.1, reading.2⟩) ::
      scan (Lexeme.read c more).rest := by
  rw [scan]
  split
  next h' => simp [h] at h'
  next c' more' h' =>
    obtain ⟨rfl, rfl⟩ := List.cons.inj (h.symm.trans h')
    rfl

/-- Places aside, a cursor reads what scanning its text gives. -/
theorem exists_reads_iff_scan {cursor : Cursor} {terminals : List Terminal} :
    (∃ tokens, cursor.Reads tokens ∧
        tokens.map Token.terminal = terminals ++ [.endOfInput]) ↔
      scan cursor.rest = terminals.map .ok := by
  -- The induction is over the cursor, not over its text: a token has a place, which a text has not.
  induction cursor using Cursor.induction_on generalizing terminals with
  | finish cursor text =>
    rw [scan_of_eq_nil text]
    constructor
    · intro h
      obtain ⟨tokens, hread, hterminals⟩ := h
      obtain rfl := (Cursor.reads_of_eq_nil text).mp hread
      cases terminals with
      | nil => rfl
      | cons => simp at hterminals
    · intro h
      obtain rfl := List.map_eq_nil_iff.mp h.symm
      exact ⟨_, (Cursor.reads_of_eq_nil text).mpr rfl, rfl⟩
  | lexeme cursor c cs text ih =>
    rw [scan_of_eq_cons text]
    constructor
    · intro h
      obtain ⟨tokens, hread, hterminals⟩ := h
      obtain ⟨kind, word, others, reading, rfl, more⟩ := (Cursor.reads_of_eq_cons text).mp hread
      cases terminals with
      | nil =>
        obtain ⟨first, -⟩ := List.cons.inj hterminals
        exact absurd (congrArg Terminal.kind first) (Lexeme.isSound_read c cs kind word reading).2
      | cons terminal terminals =>
        obtain ⟨first, behind⟩ := List.cons.inj hterminals
        rw [reading, ← first]
        exact congrArg _ (ih.mp ⟨others, more, behind⟩)
    · intro h
      cases terminals with
      | nil => cases h
      | cons terminal terminals =>
        obtain ⟨first, behind⟩ := List.cons.inj h
        obtain ⟨tokens, hread, hterminals⟩ := ih.mpr behind
        cases reading : (Lexeme.read c cs).reading with
        | error fault =>
          rw [reading] at first
          cases first
        | ok accepted =>
          rw [reading] at first
          cases first
          refine ⟨_ :: tokens, (Cursor.reads_of_eq_cons text).mpr
            ⟨_, _, tokens, reading, rfl, hread⟩, ?_⟩
          exact congrArg _ hterminals

end BasicCompiler
