import BasicCompiler.Proofs.Lexing.Reading

/-!
# The places of tokens

Tokens are read from left to right. Read `Cursor.Reads.pairwise_location` first: of two tokens of
one source the one read first stands in front, so no two tokens share a place.
-/

namespace BasicCompiler

namespace Location

/-- Locations are ordered transitively. -/
theorem lt_trans {a b c : Location} (h : a < b) (h' : b < c) : a < c := by
  rcases h with h | ⟨h, hcolumn⟩
  · rcases h' with h' | ⟨h', -⟩
    · exact .inl (Nat.lt_trans h h')
    · exact .inl (h' ▸ h)
  · rcases h' with h' | ⟨h', hcolumn'⟩
    · exact .inl (h ▸ h')
    · exact .inr ⟨h.trans h', Nat.lt_trans hcolumn hcolumn'⟩

/-- No location stands in front of itself. -/
theorem lt_irrefl (a : Location) : ¬ a < a := by
  intro h
  obtain h | ⟨-, h⟩ := h
  · exact Nat.lt_irrefl _ h
  · exact Nat.lt_irrefl _ h

/-- The place behind a character lies behind the character. -/
theorem lt_advance (location : Location) (c : Char) : location < location.advance c := by
  unfold advance
  split
  · exact .inl (Nat.lt_succ_self _)
  · exact .inr ⟨rfl, Nat.lt_succ_self _⟩

/-- A place in front of the beginning of a stretch of text is in front of its end. -/
theorem lt_after_of_lt {a b : Location} (h : a < b) (text : List Char) : a < b.after text := by
  induction text generalizing b with
  | nil => exact h
  | cons c text ih => exact ih (lt_trans h (lt_advance b c))

/-- The place behind a stretch that is not empty lies behind its beginning. -/
theorem lt_after (location : Location) {text : List Char} (h : text ≠ []) :
    location < location.after text := by
  cases text with
  | nil => exact absurd rfl h
  | cons c text => exact lt_after_of_lt (lt_advance location c) text

end Location

namespace Cursor

/-- A place in front of a cursor is in front of everything that is read from there. -/
theorem Reads.lt_location {cursor : Cursor} {tokens : List Token} (h : cursor.Reads tokens)
    {location : Location} (hlocation : location < cursor.location) :
    ∀ token ∈ tokens, location < token.location := by
  induction cursor using induction_on generalizing tokens with
  | finish cursor text =>
    obtain rfl := (reads_of_eq_nil text).mp h
    intro token hmem
    rw [List.mem_singleton.mp hmem]
    exact Location.lt_after_of_lt hlocation _
  | lexeme cursor c cs text ih =>
    obtain ⟨kind, word, others, -, rfl, more⟩ := (reads_of_eq_cons text).mp h
    have start : location < cursor.lexemeStart := Location.lt_after_of_lt hlocation _
    intro token hmem
    rcases List.mem_cons.mp hmem with rfl | hmem
    · exact start
    · exact ih more (Location.lt_after_of_lt start _) token hmem

/-- Of two tokens of one source, the one read first stands in front. -/
theorem Reads.pairwise_location {cursor : Cursor} {tokens : List Token} (h : cursor.Reads tokens) :
    tokens.Pairwise fun a b => a.location < b.location := by
  induction cursor using induction_on generalizing tokens with
  | finish cursor text =>
    obtain rfl := (reads_of_eq_nil text).mp h
    exact List.pairwise_singleton _ _
  | lexeme cursor c cs text ih =>
    obtain ⟨kind, word, others, -, rfl, more⟩ := (reads_of_eq_cons text).mp h
    refine List.pairwise_cons.mpr ⟨?_, ih more⟩
    exact more.lt_location (Location.lt_after _ (Lexeme.covers_read c cs).taken_ne_nil)

/-- Two tokens of one source at one place are the same token. -/
theorem Reads.index_unique {cursor : Cursor} {tokens : List Token} (h : cursor.Reads tokens)
    {i j : Nat} {a b : Token} (ha : tokens[i]? = some a) (hb : tokens[j]? = some b)
    (hlocation : a.location = b.location) : i = j := by
  obtain ⟨hi, rfl⟩ := List.getElem?_eq_some_iff.mp ha
  obtain ⟨hj, rfl⟩ := List.getElem?_eq_some_iff.mp hb
  have ordered := List.pairwise_iff_getElem.mp h.pairwise_location
  rcases Nat.lt_trichotomy i j with hlt | heq | hlt
  · exact absurd (hlocation ▸ ordered i j hi hj hlt) (Location.lt_irrefl _)
  · exact heq
  · exact absurd (hlocation ▸ ordered j i hj hi hlt) (Location.lt_irrefl _)

end Cursor

end BasicCompiler
