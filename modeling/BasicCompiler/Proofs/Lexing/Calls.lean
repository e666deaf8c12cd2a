import BasicCompiler.Proofs.Layout.Gaps

/-!
# What one call reads

`Cursor.Called` says what one call of `Cursor.next` can do: pass over what fills the gap in front of
it and read there the end of the input, a token that nothing extends, or characters that are no
token. `Malformed` lists the ways in which characters are no token. Read `Cursor.next_eq_iff_called`
first: a call does what `Called` says and nothing else.
-/

namespace BasicCompiler

/-! ## What is passed over -/

/-- All of `skipped` is passed over in front of `rest`, and nothing of `rest`: blanks, and a comment
that lasts to the end of its line. -/
structure FillsGap (skipped rest : List Char) : Prop where
  isSkipped : IsSkipped skipped
  ends : (∀ c ∈ skipped, isBlank c = true) ∨ EndsComment rest
  stops : ∀ c, rest.head? = some c → isBlank c = false ∧ c ≠ '#'

/-- Nothing is passed over in a text that begins with neither a blank nor a comment. -/
theorem behindTrivia_eq_self_iff {rest : List Char} :
    behindTrivia rest = rest ↔ ∀ c, rest.head? = some c → isBlank c = false ∧ c ≠ '#' := by
  cases rest with
  | nil => simp [behindTrivia]
  | cons c cs =>
    constructor
    · intro h d hd
      obtain rfl := Option.some.inj hd
      refine ⟨Bool.eq_false_iff.mpr fun hblank => ?_, fun hcomment => ?_⟩
      · have hskip : behindTrivia (c :: cs) = behindTrivia cs := by
          unfold behindTrivia
          rw [List.dropWhile_cons_of_pos hblank]
        have hshort := length_behindTrivia_le cs
        rw [← hskip, h, List.length_cons] at hshort
        omega
      · subst hcomment
        have hskip : behindTrivia ('#' :: cs) = cs.dropWhile (· != '\n') := rfl
        have hshort := (List.dropWhile_sublist (· != '\n') (l := cs)).length_le
        rw [← hskip, h, List.length_cons] at hshort
        omega
    · intro h
      obtain ⟨hblank, hcomment⟩ := h c rfl
      exact behindTrivia_cons hblank hcomment cs

/-- What fills a gap is the trivia of the text, and the text behind it is the rest. -/
theorem fillsGap_iff {skipped rest : List Char} :
    FillsGap skipped rest ↔
      trivia (skipped ++ rest) = skipped ∧ behindTrivia (skipped ++ rest) = rest := by
  constructor
  · intro h
    have hbehind := h.isSkipped.behindTrivia_append h.ends (behindTrivia_eq_self_iff.mpr h.stops)
    have hwhole := trivia_append_behindTrivia (skipped ++ rest)
    rw [hbehind] at hwhole
    exact ⟨List.append_cancel_right hwhole, hbehind⟩
  · rintro ⟨htrivia, hbehind⟩
    obtain ⟨hskipped, hends, hstays⟩ := isSkipped_trivia (skipped ++ rest)
    rw [htrivia] at hskipped hends
    rw [hbehind] at hends hstays
    exact ⟨hskipped, hends, behindTrivia_eq_self_iff.mp hstays⟩

/-- The trivia of a text fill the gap in front of what is behind them. -/
theorem fillsGap_trivia (cs : List Char) : FillsGap (trivia cs) (behindTrivia cs) := by
  rw [fillsGap_iff, trivia_append_behindTrivia]
  exact ⟨rfl, rfl⟩

/-! ## What is no token -/

/-- A token, or a fault of more than one character, can begin with the character. -/
def beginsLexeme (c : Char) : Bool :=
  c.isDigit || c.isAlpha || ['\n', '"', '+', '-', '*', '/', '=', '<', '>', '!'].contains c

/-- The characters `taken`, in front of `rest`, are no token for the given reason. -/
inductive Malformed : LexicalFault → List Char → List Char → Prop where
  | exclamation {rest : List Char} (h : rest.head? ≠ some '=') :
      Malformed .loneExclamation ['!'] rest
  | illegal {body rest : List Char} {c : Char}
      (hbody : ∀ d ∈ body, Lexeme.isTextCharacter d = true)
      (h : c ∈ ['\r', '\n', '\t', '\\', '%']) :
      Malformed (.illegalInText c) ('"' :: body) (c :: rest)
  | unterminated {body : List Char} (hbody : ∀ d ∈ body, Lexeme.isTextCharacter d = true) :
      Malformed .unterminatedText ('"' :: body) []
  | noFraction {digits rest : List Char} (h : IsDigits digits)
      (hrest : ∀ c, rest.head? = some c → c.isDigit = false) :
      Malformed (.malformedNumber (digits ++ ['.'])) (digits ++ ['.']) rest
  | secondPoint {digits fraction more rest : List Char} (h : IsDigits digits)
      (hfraction : IsDigits fraction) (hmore : ∀ c ∈ more, c.isDigit = true)
      (hrest : ∀ c, rest.head? = some c → c.isDigit = false) :
      Malformed (.malformedNumber (digits ++ '.' :: fraction ++ '.' :: more))
        (digits ++ '.' :: fraction ++ '.' :: more) rest
  | character {c : Char} {rest : List Char} (h : beginsLexeme c = false) :
      Malformed (.unexpectedCharacter c) [c] rest

namespace Lexeme

/-- If the lexeme is a fault, its characters are no token for the reason that the fault gives. -/
def IsJustified (lexeme : Lexeme) : Prop :=
  ∀ fault, lexeme.reading = .error fault → Malformed fault lexeme.taken lexeme.rest

/-- An accepted lexeme is no fault. -/
theorem isJustified_accept {kind : Kind} {taken rest : List Char} :
    (accept kind taken rest).IsJustified := by
  intro fault hreading
  cases hreading

/-- A refused lexeme is justified if its characters are malformed. -/
theorem isJustified_refuse {fault : LexicalFault} {taken rest : List Char}
    (h : Malformed fault taken rest) : (refuse fault taken rest).IsJustified := by
  intro fault' hreading
  cases hreading
  exact h

/-- The characters that end a quoted text are its closing quote and those it cannot hold. -/
theorem isTextCharacter_eq_false_iff {c : Char} :
    isTextCharacter c = false ↔ c = '"' ∨ c ∈ ['\r', '\n', '\t', '\\', '%'] := by
  simp only [isTextCharacter, Bool.not_eq_false', Bool.or_eq_true, beq_iff_eq, List.mem_cons,
    List.not_mem_nil, or_false, or_assoc]

/-- A quoted text is refused at a character it cannot hold and at the end of the input. -/
theorem isJustified_readText (cs : List Char) : (readText cs).IsJustified := by
  have hbody : ∀ d ∈ cs.takeWhile isTextCharacter, isTextCharacter d = true :=
    List.all_eq_true.mp List.all_takeWhile
  unfold readText
  split
  · exact isJustified_refuse (.unterminated hbody)
  · next c rest hrest =>
    have hstop : isTextCharacter c = false := boundary_dropWhile _ cs c (by rw [hrest]; rfl)
    split
    · intro fault hreading
      cases hreading
    · next hquote =>
      rcases isTextCharacter_eq_false_iff.mp hstop with hc | hc
      · exact absurd hc hquote
      · exact isJustified_refuse (.illegal hbody hc)

/-- A number is refused for a point without a digit behind it and for a second point. -/
theorem isJustified_readNumber {first : Char} (h : first.isDigit = true) (cs : List Char) :
    (readNumber first cs).IsJustified := by
  have hwhole := isDigits_cons_takeWhile h cs
  unfold readNumber
  split
  · next behind _ =>
    dsimp only
    split
    · next hfraction =>
      refine isJustified_refuse (.noFraction hwhole fun c hc => ?_)
      rw [← List.takeWhile_append_dropWhile (p := Char.isDigit) (l := behind), hfraction] at hc
      exact boundary_dropWhile _ behind c hc
    · next hfraction =>
      split
      · next more _ =>
        exact isJustified_refuse (.secondPoint hwhole
          ⟨hfraction, List.all_eq_true.mp List.all_takeWhile⟩
          (List.all_eq_true.mp List.all_takeWhile) (boundary_dropWhile _ more))
      · exact isJustified_accept
  · exact isJustified_accept

/-- An operator that can be extended is no fault. -/
theorem isJustified_readExtensible (first : Char) (single double : Operator) (cs : List Char) :
    (readExtensible first single double cs).IsJustified := by
  unfold readExtensible
  split
  · exact isJustified_accept
  · exact isJustified_accept

/-- An exclamation mark is refused in front of anything but an equals sign. -/
theorem isJustified_readNotEqual (cs : List Char) : (readNotEqual cs).IsJustified := by
  unfold readNotEqual
  split
  · exact isJustified_accept
  · next hequals =>
    refine isJustified_refuse (.exclamation fun hhead => ?_)
    obtain ⟨rest, hrest⟩ := List.head?_eq_some_iff.mp hhead
    exact hequals rest hrest

/-- A choice between two justified lexemes is justified. -/
theorem isJustified_ite {p : Prop} [Decidable p] {yes no : Lexeme} (hyes : p → yes.IsJustified)
    (hno : ¬ p → no.IsJustified) : (if p then yes else no).IsJustified := by
  by_cases h : p
  · simpa [h] using hyes h
  · simpa [h] using hno h

/-- Every lexeme that is read is justified. -/
theorem isJustified_read (c : Char) (cs : List Char) : (read c cs).IsJustified := by
  unfold read
  refine isJustified_ite (fun _ => isJustified_accept) fun hline => ?_
  refine isJustified_ite (fun _ => isJustified_readText cs) fun hquote => ?_
  refine isJustified_ite (fun h => isJustified_readNumber h cs) fun hdigit => ?_
  refine isJustified_ite (fun _ => isJustified_accept) fun hletter => ?_
  refine isJustified_ite (fun _ => isJustified_accept) fun hplus => ?_
  refine isJustified_ite (fun _ => isJustified_accept) fun hminus => ?_
  refine isJustified_ite (fun _ => isJustified_accept) fun htimes => ?_
  refine isJustified_ite (fun _ => isJustified_accept) fun hdivide => ?_
  refine isJustified_ite (fun _ => isJustified_readExtensible _ _ _ cs) fun hequals => ?_
  refine isJustified_ite (fun _ => isJustified_readExtensible _ _ _ cs) fun hless => ?_
  refine isJustified_ite (fun _ => isJustified_readExtensible _ _ _ cs) fun hgreater => ?_
  refine isJustified_ite (fun _ => isJustified_readNotEqual cs) fun hmark => ?_
  refine isJustified_refuse (.character ?_)
  simp [beginsLexeme, *]

/-- An exclamation mark alone is refused. -/
theorem readNotEqual_alone {rest : List Char} (h : rest.head? ≠ some '=') :
    readNotEqual rest = refuse .loneExclamation ['!'] rest := by
  unfold readNotEqual
  split
  · exact absurd rfl h
  · rfl

/-- A quoted text is refused in front of a character it cannot hold. -/
theorem readText_illegal {body : List Char} {c : Char}
    (hbody : ∀ d ∈ body, isTextCharacter d = true) (h : c ∈ ['\r', '\n', '\t', '\\', '%'])
    (rest : List Char) :
    readText (body ++ c :: rest) = refuse (.illegalInText c) ('"' :: body) (c :: rest) := by
  have hstop : isTextCharacter c = false := isTextCharacter_eq_false_iff.mpr (.inr h)
  have hquote : c ≠ '"' := by
    intro hsame
    subst hsame
    simp at h
  obtain ⟨htake, hdrop⟩ := takeWhile_append_of_boundary hbody (boundary_cons hstop rest)
  rw [readText, htake, hdrop]
  exact if_neg hquote

/-- A quoted text is refused at the end of the input. -/
theorem readText_unterminated {body : List Char} (hbody : ∀ d ∈ body, isTextCharacter d = true) :
    readText body = refuse .unterminatedText ('"' :: body) [] := by
  have hend : ∀ c, ([] : List Char).head? = some c → isTextCharacter c = false := by simp
  obtain ⟨htake, hdrop⟩ := takeWhile_append_of_boundary hbody hend
  rw [List.append_nil] at htake hdrop
  rw [readText, htake, hdrop]

/-- The digits of a number end at a point. -/
theorem takeWhile_isDigit_point {digits : List Char} (h : ∀ c ∈ digits, c.isDigit = true)
    (rest : List Char) :
    (digits ++ '.' :: rest).takeWhile Char.isDigit = digits ∧
      (digits ++ '.' :: rest).dropWhile Char.isDigit = '.' :: rest :=
  takeWhile_append_of_boundary h (boundary_cons rfl rest)

/-- A number is refused up to a point without a digit behind it. -/
theorem readNumber_noFraction {first : Char} {more rest : List Char}
    (h : ∀ c ∈ more, c.isDigit = true) (hrest : ∀ c, rest.head? = some c → c.isDigit = false) :
    readNumber first (more ++ '.' :: rest) =
      refuse (.malformedNumber (first :: more ++ ['.'])) (first :: more ++ ['.']) rest := by
  obtain ⟨htake, hdrop⟩ := takeWhile_isDigit_point h rest
  have hnone : rest.takeWhile Char.isDigit = [] :=
    (takeWhile_append_of_boundary (List.forall_mem_nil _) hrest).1
  rw [readNumber, htake, hdrop]
  exact if_pos hnone

/-- A number with a second point is refused with the digits behind that point. -/
theorem readNumber_secondPoint {first : Char} {more fraction behind rest : List Char}
    (h : ∀ c ∈ more, c.isDigit = true) (hfraction : IsDigits fraction)
    (hbehind : ∀ c ∈ behind, c.isDigit = true)
    (hrest : ∀ c, rest.head? = some c → c.isDigit = false) :
    readNumber first (more ++ '.' :: (fraction ++ '.' :: (behind ++ rest))) =
      refuse (.malformedNumber (first :: more ++ '.' :: fraction ++ '.' :: behind))
        (first :: more ++ '.' :: fraction ++ '.' :: behind) rest := by
  obtain ⟨htake, hdrop⟩ := takeWhile_isDigit_point h (fraction ++ '.' :: (behind ++ rest))
  obtain ⟨htake', hdrop'⟩ := takeWhile_isDigit_point hfraction.isDigit (behind ++ rest)
  obtain ⟨htake'', hdrop''⟩ := takeWhile_append_of_boundary hbehind hrest
  rw [readNumber, htake, hdrop]
  simp only [htake', hdrop', if_neg hfraction.ne_nil, htake'', hdrop'']

/-- A character with which nothing begins is refused. -/
theorem read_of_not_begins {c : Char} (h : beginsLexeme c = false) (cs : List Char) :
    read c cs = refuse (.unexpectedCharacter c) [c] cs := by
  simp only [beginsLexeme, List.contains_cons, List.contains_nil, Bool.or_false,
    Bool.or_eq_false_iff, beq_eq_false_iff_ne] at h
  obtain ⟨⟨hdigit, hletter⟩, hline, hquote, hplus, hminus, htimes, hdivide, hequals, hless,
    hgreater, hmark⟩ := h
  simp [read, *]

end Lexeme

/-- Malformed characters are refused for the reason that makes them malformed, and no more and no
fewer characters are taken. -/
theorem Malformed.read_eq {fault : LexicalFault} {taken rest : List Char}
    (h : Malformed fault taken rest) :
    ∃ c cs, taken = c :: cs ∧ Lexeme.read c (cs ++ rest) = Lexeme.refuse fault taken rest := by
  cases h with
  | exclamation h => exact ⟨'!', [], rfl, Lexeme.readNotEqual_alone h⟩
  | illegal hbody h => exact ⟨'"', _, rfl, Lexeme.readText_illegal hbody h _⟩
  | @unterminated body hbody =>
    refine ⟨'"', body, rfl, ?_⟩
    rw [List.append_nil]
    exact Lexeme.readText_unterminated hbody
  | noFraction h hrest =>
    obtain ⟨c, cs, rfl, hc, hcs, -, -⟩ := Lexeme.exists_cons_of_isDigits h
    refine ⟨c, cs ++ ['.'], rfl, ?_⟩
    rw [Lexeme.read_of_isDigit hc, List.append_assoc]
    exact Lexeme.readNumber_noFraction hcs hrest
  | @secondPoint _ fraction more rest h hfraction hmore hrest =>
    obtain ⟨c, cs, rfl, hc, hcs, -, -⟩ := Lexeme.exists_cons_of_isDigits h
    refine ⟨c, cs ++ '.' :: fraction ++ '.' :: more, rfl, ?_⟩
    rw [Lexeme.read_of_isDigit hc, List.append_assoc, List.append_assoc]
    exact Lexeme.readNumber_secondPoint hcs hfraction hmore hrest
  | character h => exact ⟨_, [], rfl, Lexeme.read_of_not_begins h _⟩

/-! ## What a call does -/

namespace Cursor

/-- What one call gives and where it leaves the cursor: behind what fills the gap in front of it
stands the end of the input, a token that nothing extends, or something malformed. -/
inductive Called (cursor : Cursor) : Except Diagnostic Token → Cursor → Prop where
  | finish {skipped : List Char} (text : cursor.rest = skipped) (gap : FillsGap skipped []) :
      Called cursor (.ok (.endOfInput (cursor.location.after skipped)))
        ⟨cursor.location.after skipped, []⟩
  | token {skipped rest : List Char} {token : Token}
      (text : cursor.rest = skipped ++ (token.terminal.lexeme ++ rest))
      (gap : FillsGap skipped (token.terminal.lexeme ++ rest))
      (hwell : token.terminal.WellFormed) (hend : token.kind ≠ .endOfInput)
      (hrest : token.terminal.EndsBefore rest)
      (hlocation : token.location = cursor.location.after skipped) :
      Called cursor (.ok token) ⟨token.location.after token.terminal.lexeme, rest⟩
  | fault {skipped taken rest : List Char} {fault : LexicalFault}
      (text : cursor.rest = skipped ++ (taken ++ rest))
      (gap : FillsGap skipped (taken ++ rest)) (h : Malformed fault taken rest) :
      Called cursor
        (.error (.lexical fault (Lexeme.faultLocation fault (cursor.location.after skipped)
          ((cursor.location.after skipped).after taken))))
        ⟨(cursor.location.after skipped).after taken, rest⟩

/-- What a call does is one of the three. -/
theorem called_next (cursor : Cursor) : cursor.Called cursor.next.1 cursor.next.2 := by
  have gap := fillsGap_trivia cursor.rest
  have whole := (trivia_append_behindTrivia cursor.rest).symm
  cases text : behindTrivia cursor.rest with
  | nil =>
    rw [next_of_eq_nil text]
    rw [text] at gap whole
    exact .finish (whole.trans (List.append_nil _)) gap
  | cons c cs =>
    rw [next_of_eq_cons text]
    rw [text, ← (Lexeme.covers_read c cs).taken_append_rest] at gap whole
    unfold Lexeme.result behind
    cases reading : (Lexeme.read c cs).reading with
    | error fault => exact .fault whole gap (Lexeme.isJustified_read c cs fault reading)
    | ok accepted =>
      obtain ⟨kind, word⟩ := accepted
      obtain ⟨hwell, hend⟩ := Lexeme.isSound_read c cs kind word reading
      obtain ⟨htaken, hrest⟩ := Lexeme.isExact_read c cs kind word reading
      rw [htaken] at gap whole ⊢
      exact @Called.token cursor _ _ ⟨kind, word, cursor.lexemeStart⟩ whole gap hwell hend hrest rfl

variable {cursor after : Cursor} {result : Except Diagnostic Token}

/-- Whatever can be done by a call is what the call does. -/
theorem Called.next_eq (h : cursor.Called result after) : cursor.next = (result, after) := by
  cases h with
  | @finish skipped text gap =>
    obtain ⟨htrivia, hbehind⟩ := fillsGap_iff.mp gap
    rw [List.append_nil] at htrivia hbehind
    rw [← text] at hbehind
    rw [next_of_eq_nil hbehind, lexemeStart, text, htrivia]
  | @token skipped rest token text gap hwell hend hrest hlocation =>
    obtain ⟨htrivia, hbehind⟩ := fillsGap_iff.mp gap
    rw [← text] at htrivia hbehind
    obtain ⟨c, cs, hlexeme, -, -, hread⟩ := Lexeme.readsBack hwell hend hrest
    rw [hlexeme, List.cons_append] at hbehind
    rw [hlexeme, next_of_eq_cons hbehind, hread, behind, lexemeStart, htrivia, ← hlocation]
    rfl
  | @fault skipped taken rest fault text gap h =>
    obtain ⟨htrivia, hbehind⟩ := fillsGap_iff.mp gap
    rw [← text] at htrivia hbehind
    obtain ⟨c, cs, rfl, hread⟩ := h.read_eq
    rw [List.cons_append] at hbehind
    rw [next_of_eq_cons hbehind, hread, behind, lexemeStart, htrivia]
    rfl

/-- A call does exactly what can be done. -/
theorem next_eq_iff_called : cursor.next = (result, after) ↔ cursor.Called result after := by
  constructor
  · intro h
    have hcalled := called_next cursor
    rwa [h] at hcalled
  · exact Called.next_eq

end Cursor

end BasicCompiler
