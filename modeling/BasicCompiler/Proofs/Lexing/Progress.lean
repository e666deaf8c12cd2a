import Mathlib.Data.List.Induction
import BasicCompiler.Proofs.Lexing.Calls
import BasicCompiler.Proofs.Lexing.Places
import BasicCompiler.Proofs.Lexing.Readings

/-!
# Progress of reading

A cursor is called again and again, whatever it gives. `Cursor.Passes` says which characters lie
between two of its states, and `Location.counted` counts the lines and the columns of a place from
the beginning of the text. Read `readings_advance` first: every call but the last ones takes
characters, the end of the input is met and never left, and places are exact and in order.
-/

namespace BasicCompiler

/-! ## Places by counting -/

namespace Location

/-- The place behind the beginning `front` of a text: one line more than it has line feeds, and one
column more than it has characters behind the last of them. -/
def counted (front : List Char) : Location :=
  ⟨1 + front.count '\n', 1 + (front.reverse.takeWhile (· != '\n')).length⟩

/-- Moving over a text character by character counts its lines and columns. -/
theorem after_start (front : List Char) : start.after front = counted front := by
  -- the last character decides whether a new line begins, so the induction is from the end
  induction front using List.reverseRecOn with
  | nil => rfl
  | append_singleton front c ih =>
    rw [after_append, ih, after_cons, after_nil, advance]
    by_cases hc : c = '\n'
    · subst hc
      simp [counted, Nat.add_assoc]
    · have hkeep : (c != '\n') = true := bne_iff_ne.mpr hc
      simp [counted, hc, hkeep, Nat.add_assoc]

/-- Nothing that lies behind a place is in front of it. -/
theorem not_after_lt (location : Location) (text : List Char) :
    ¬ location.after text < location := by
  intro h
  by_cases hempty : text = []
  · subst hempty
    exact lt_irrefl location h
  · exact lt_irrefl location (lt_trans (lt_after location hempty) h)

end Location

/-- The place of a token or of a fault. -/
def place : Except Diagnostic Token → Location
  | .ok token => token.location
  | .error diagnostic => diagnostic.location

/-- The result is the end of the input. -/
def IsEnd (result : Except Diagnostic Token) : Prop :=
  ∃ location, result = .ok (.endOfInput location)

namespace Cursor

/-! ## One call -/

/-- The characters `passed` lie between two states of a cursor. -/
structure Passes (cursor : Cursor) (passed : List Char) (after : Cursor) : Prop where
  rest_eq : cursor.rest = passed ++ after.rest
  location_eq : after.location = cursor.location.after passed

/-- Nothing lies between a cursor and itself. -/
theorem Passes.refl (cursor : Cursor) : cursor.Passes [] cursor :=
  ⟨rfl, rfl⟩

/-- What lies between two states lies in a row. -/
theorem Passes.trans {a b c : Cursor} {first second : List Char} (h : a.Passes first b)
    (h' : b.Passes second c) : a.Passes (first ++ second) c := by
  constructor
  · rw [h.rest_eq, h'.rest_eq, List.append_assoc]
  · rw [h'.location_eq, h.location_eq, Location.after_append]

/-- What a call passes over falls into two parts: `before` in front of the place of its result, and
`behind` from there on, which are the characters of the token if the result is one. -/
structure Parts (cursor : Cursor) (result : Except Diagnostic Token) (after : Cursor)
    (before behind : List Char) : Prop where
  passes : cursor.Passes (before ++ behind) after
  place_eq : place result = cursor.location.after before
  behind_eq : ∀ token, result = .ok token → behind = token.terminal.lexeme
  behind_ne_nil : ∀ token, result = .ok token → token.kind ≠ .endOfInput → behind ≠ []
  isEnd : before ++ behind = [] → IsEnd result

section

variable {cursor after : Cursor} {result : Except Diagnostic Token}

/-- Every call passes over two such parts. -/
theorem Called.exists_parts (h : cursor.Called result after) :
    ∃ before behind, cursor.Parts result after before behind := by
  cases h with
  | @finish skipped text gap =>
    refine ⟨skipped, [], ⟨by simp [text], by simp⟩, rfl, fun token htoken => ?_,
      fun token htoken hend => ?_, fun _ => ⟨_, rfl⟩⟩
    · cases htoken
      rfl
    · cases htoken
      exact absurd rfl hend
  | @token skipped rest token text gap hwell hend hrest hlocation =>
    obtain ⟨c, cs, hlexeme, -⟩ := Lexeme.readsBack hwell hend hrest
    have hne : token.terminal.lexeme ≠ [] := by simp [hlexeme]
    refine ⟨skipped, token.terminal.lexeme, ⟨by simp [text], ?_⟩, hlocation, fun other hother => ?_,
      fun _ _ _ => hne, fun hempty => absurd (List.append_eq_nil_iff.mp hempty).2 hne⟩
    · rw [Location.after_append, hlocation]
    · cases hother
      rfl
  | @fault skipped taken rest fault text gap h =>
    obtain ⟨c, cs, rfl, -⟩ := h.read_eq
    have hpasses : cursor.Passes (skipped ++ c :: cs)
        ⟨(cursor.location.after skipped).after (c :: cs), rest⟩ :=
      ⟨by simp [text], (Location.after_append _ skipped (c :: cs)).symm⟩
    cases fault with
    | illegalInText d =>
      -- the place is that of the illegal character, which is left for the next call
      refine ⟨skipped ++ c :: cs, [], ?_, ?_, by simp, by simp, by simp⟩
      · rwa [List.append_nil]
      · exact (Location.after_append _ skipped (c :: cs)).symm
    | unexpectedCharacter | loneExclamation | unterminatedText | malformedNumber =>
      exact ⟨skipped, c :: cs, hpasses, rfl, by simp, by simp, by simp⟩

/-- Behind the end of the input nothing is left. -/
theorem Called.eq_of_endOfInput {location : Location}
    (h : cursor.Called (.ok (.endOfInput location)) after) : after = ⟨location, []⟩ := by
  generalize hresult : Except.ok (Token.endOfInput location) = result at h
  cases h with
  | finish =>
    cases hresult
    rfl
  | token _ _ _ hend =>
    cases hresult
    exact absurd rfl hend
  | fault => cases hresult

end

/-! ## Call after call -/

/-- The state of a cursor after a number of calls. -/
def afterReadings (cursor : Cursor) : Nat → Cursor
  | 0 => cursor
  | i + 1 => cursor.next.2.afterReadings i

/-- One call more is made by the state that the calls before it have left. -/
theorem called_reading (cursor : Cursor) (i : Nat) :
    (cursor.afterReadings i).Called (cursor.reading i) (cursor.afterReadings (i + 1)) := by
  induction i generalizing cursor with
  | zero => exact called_next cursor
  | succ i ih => exact ih cursor.next.2

/-- From one state to a later one only characters are passed over. -/
theorem exists_passes (cursor : Cursor) {i j : Nat} (h : i ≤ j) :
    ∃ passed, (cursor.afterReadings i).Passes passed (cursor.afterReadings j) := by
  induction h with
  | refl => exact ⟨[], .refl _⟩
  | @step j _ ih =>
    obtain ⟨passed, hpassed⟩ := ih
    obtain ⟨before, behind, hcall⟩ := (called_reading cursor j).exists_parts
    exact ⟨passed ++ (before ++ behind), hpassed.trans hcall.passes⟩

/-- The place of a later result lies behind the place of an earlier one; if the earlier one is a
token and not the end of the input, something lies between them. -/
theorem exists_place_eq_after (cursor : Cursor) {i j : Nat} (h : i < j) :
    ∃ text, place (cursor.reading j) = (place (cursor.reading i)).after text ∧
      ∀ token, cursor.reading i = .ok token → token.kind ≠ .endOfInput → text ≠ [] := by
  obtain ⟨before, behind, hcall⟩ := (called_reading cursor i).exists_parts
  obtain ⟨passed, hpassed⟩ := exists_passes cursor h
  obtain ⟨before', behind', hcall'⟩ := (called_reading cursor j).exists_parts
  refine ⟨behind ++ passed ++ before', ?_, fun token hreading hkind hempty => ?_⟩
  · rw [hcall'.place_eq, hpassed.location_eq, hcall.passes.location_eq, hcall.place_eq]
    simp only [Location.after_append]
  · have hbehind := hcall.behind_ne_nil token hreading hkind
    simp [hbehind] at hempty

/-- A token that is not the end of the input stands in front of every token that is read later. -/
theorem location_lt_of_reading {cursor : Cursor} {i j : Nat} {a b : Token} (h : i < j)
    (ha : cursor.reading i = .ok a) (hb : cursor.reading j = .ok b)
    (hkind : a.kind ≠ .endOfInput) : a.location < b.location := by
  obtain ⟨text, hplace, htext⟩ := exists_place_eq_after cursor h
  rw [ha, hb] at hplace
  have hlocation : b.location = a.location.after text := hplace
  rw [hlocation]
  exact Location.lt_after a.location (htext a ha hkind)

/-- No result is placed in front of an earlier one. -/
theorem not_place_lt (cursor : Cursor) {i j : Nat} (h : i ≤ j) :
    ¬ place (cursor.reading j) < place (cursor.reading i) := by
  rcases Nat.eq_or_lt_of_le h with rfl | hlt
  · exact Location.lt_irrefl _
  · obtain ⟨text, hplace, -⟩ := exists_place_eq_after cursor hlt
    rw [hplace]
    exact Location.not_after_lt _ text

/-- As long as the end of the input is not met, every call takes a character. -/
theorem length_rest_afterReadings (cursor : Cursor) {i : Nat}
    (h : ∀ k < i, ¬ IsEnd (cursor.reading k)) :
    (cursor.afterReadings i).rest.length + i ≤ cursor.rest.length := by
  induction i with
  | zero => exact Nat.le_refl _
  | succ i ih =>
    obtain ⟨before, behind, hcall⟩ := (called_reading cursor i).exists_parts
    have hshort := ih fun k hk => h k (Nat.lt_succ_of_lt hk)
    have hpassed : 0 < (before ++ behind).length :=
      List.length_pos_iff.mpr fun hempty => h i (Nat.lt_succ_self i) (hcall.isEnd hempty)
    rw [hcall.passes.rest_eq, List.length_append] at hshort
    omega

/-- The end of the input is met after no more calls than there are characters, and one. -/
theorem exists_isEnd (cursor : Cursor) : ∃ i ≤ cursor.rest.length, IsEnd (cursor.reading i) := by
  by_contra hnever
  have hall : ∀ k < cursor.rest.length + 1, ¬ IsEnd (cursor.reading k) :=
    fun k hk hend => hnever ⟨k, Nat.lt_succ_iff.mp hk, hend⟩
  have hshort := length_rest_afterReadings cursor hall
  omega

/-- From the end of the input on nothing changes. -/
theorem reading_of_endOfInput {cursor : Cursor} {i j : Nat} {location : Location} (h : i ≤ j)
    (hend : cursor.reading i = .ok (.endOfInput location)) :
    cursor.reading j = .ok (.endOfInput location) ∧
      cursor.afterReadings (j + 1) = ⟨location, []⟩ := by
  have hcalled := called_reading cursor
  induction h with
  | refl => exact ⟨hend, (hend ▸ hcalled i).eq_of_endOfInput⟩
  | @step j _ ih =>
    have hstate := hcalled (j + 1)
    rw [ih.2] at hstate
    have hnext : (Cursor.mk location []).next = (.ok (.endOfInput location), ⟨location, []⟩) := rfl
    obtain ⟨hreading, hafter⟩ := Prod.mk.inj (hstate.next_eq.symm.trans hnext)
    exact ⟨hreading, hafter⟩

end Cursor

/-! ## Readings of a source -/

section

variable {source : String} {i : Nat}

/-- A reading is what a call gives to the state that the readings before it have left. -/
theorem called_of_reading {result : Except Diagnostic Token} (h : reading source i = result) :
    ((Cursor.ofSource source).afterReadings i).Called result
      ((Cursor.ofSource source).afterReadings (i + 1)) := by
  subst h
  exact Cursor.called_reading _ i

/-- After some calls the cursor stands behind a beginning of the source, at the place behind it. -/
theorem exists_passes_ofSource (source : String) (i : Nat) :
    ∃ front, source.toList = front ++ ((Cursor.ofSource source).afterReadings i).rest ∧
      ((Cursor.ofSource source).afterReadings i).location = .counted front := by
  obtain ⟨front, hpasses⟩ := Cursor.exists_passes (Cursor.ofSource source) (Nat.zero_le i)
  exact ⟨front, hpasses.rest_eq, hpasses.location_eq.trans (Location.after_start front)⟩

/-- A token stands in the source where its place says. -/
theorem exists_front_of_token {token : Token} (h : reading source i = .ok token) :
    ∃ front, source.toList = front ++ (token.terminal.lexeme ++
        ((Cursor.ofSource source).afterReadings (i + 1)).rest) ∧
      token.location = .counted front := by
  obtain ⟨front, htext, hlocation⟩ := exists_passes_ofSource source i
  obtain ⟨before, behind, hcall⟩ := (called_of_reading h).exists_parts
  obtain rfl := hcall.behind_eq token rfl
  refine ⟨front ++ before, ?_, ?_⟩
  · rw [htext, hcall.passes.rest_eq]
    simp only [List.append_assoc]
  · rw [← Location.after_start, Location.after_append, Location.after_start, ← hlocation]
    exact hcall.place_eq

/-- A token of the kind of the end of the input is the end of the input. -/
theorem exists_eq_endOfInput {token : Token} (h : reading source i = .ok token)
    (hkind : token.kind = .endOfInput) : ∃ location, token = .endOfInput location := by
  have hcalled := called_of_reading h
  generalize (Cursor.ofSource source).afterReadings (i + 1) = after at hcalled
  cases hcalled with
  | finish => exact ⟨_, rfl⟩
  | token _ _ _ hend => exact absurd hkind hend

/-- A fault is something malformed in the source, and its place is where that begins or, for a
character that cannot stand in a quoted text, behind it. -/
theorem exists_front_of_fault {diagnostic : Diagnostic} (h : reading source i = .error diagnostic) :
    ∃ front taken rest fault, source.toList = front ++ (taken ++ rest) ∧
      Malformed fault taken rest ∧
      diagnostic = .lexical fault
        (Lexeme.faultLocation fault (.counted front) (.counted (front ++ taken))) := by
  obtain ⟨front, htext, hlocation⟩ := exists_passes_ofSource source i
  have hcalled := called_of_reading h
  generalize (Cursor.ofSource source).afterReadings (i + 1) = after at hcalled
  cases hcalled with
  | @fault skipped taken rest fault text gap hfault =>
    refine ⟨front ++ skipped, taken, rest, fault, ?_, hfault, ?_⟩
    · rw [htext, text, List.append_assoc]
    · rw [hlocation]
      simp only [← Location.after_start, Location.after_append]

end

/-- A call that does not give the end of the input takes at least one character, so the end is met
after no more calls than the source has characters, and one. From there on neither the result nor
the state changes. A token is placed where it stands in the source, of two tokens the later one
stands behind the earlier one, and no result is placed in front of an earlier one. -/
theorem readings_advance (source : String) :
    let state := (Cursor.ofSource source).afterReadings
    (∀ i, (state i).next = (reading source i, state (i + 1))) ∧
    (∀ i, ¬ IsEnd (reading source i) →
      ∃ passed, passed ≠ [] ∧ (state i).rest = passed ++ (state (i + 1)).rest) ∧
    (∃ i ≤ source.toList.length, IsEnd (reading source i)) ∧
    (∀ i j location, i ≤ j → reading source i = .ok (.endOfInput location) →
      reading source j = .ok (.endOfInput location) ∧ state (j + 1) = state (i + 1) ∧
        (state (i + 1)).rest = []) ∧
    (∀ i token, reading source i = .ok token →
      ∃ front, source.toList = front ++ (token.terminal.lexeme ++ (state (i + 1)).rest) ∧
        token.location = .counted front) ∧
    (∀ i j a b, i < j → reading source i = .ok a → reading source j = .ok b →
      a.kind ≠ .endOfInput → a.location < b.location) ∧
    ∀ i j, i ≤ j → ¬ place (reading source j) < place (reading source i) := by
  refine ⟨fun i => (Cursor.called_reading _ i).next_eq, fun i hend => ?_,
    (Cursor.ofSource source).exists_isEnd, fun i j location hij hend => ?_,
    fun i token => exists_front_of_token, fun i j a b hij => Cursor.location_lt_of_reading hij,
    fun i j hij => Cursor.not_place_lt _ hij⟩
  · obtain ⟨before, behind, hcall⟩ := (called_of_reading rfl).exists_parts
    exact ⟨before ++ behind, fun hempty => hend (hcall.isEnd hempty), hcall.passes.rest_eq⟩
  · obtain ⟨hreading, hstate⟩ := Cursor.reading_of_endOfInput hij hend
    obtain ⟨-, hfirst⟩ := Cursor.reading_of_endOfInput (Nat.le_refl i) hend
    exact ⟨hreading, hstate.trans hfirst.symm, congrArg Cursor.rest hfirst⟩

end BasicCompiler
