import BasicCompiler.Proofs.Decoding.Spelling
import BasicCompiler.Proofs.Lexing.Extent
import BasicCompiler.Proofs.Lexing.Joining

/-!
# Gaps between tokens

A gap is what stands between two tokens: blanks, and behind them a comment where a line ends.
`Gap` finds the gaps of a text, and `Relaid` lists the edits that change nothing but the layout.
Read `Relaid.scan` first: such an edit leaves the terminals of a text as they are, or adds one line
end in front of all terminals or directly behind another line end.
-/

namespace BasicCompiler

/-! ## What can stand in a gap -/

/-- No line ends, and the first character that is no blank, if there is one, begins a comment. -/
structure IsSkipped (cs : List Char) : Prop where
  not_lineFeed : '\n' ∉ cs
  comment : ∀ c, cs.find? (fun c => !isBlank c) = some c → c = '#'

/-- The text is empty or begins with a line feed, so a comment in front of it ends there. -/
def EndsComment (rest : List Char) : Prop :=
  ∀ c, rest.head? = some c → c = '\n'

section Skipped

variable {left right inserted rest : List Char}

/-- Blanks can stand in a gap. -/
theorem isSkipped_of_blank {blanks : List Char} (h : ∀ c ∈ blanks, isBlank c = true) :
    IsSkipped blanks := by
  refine ⟨fun hmem => ?_, fun c hc => ?_⟩
  · cases h _ hmem
  · have hblank := h c (List.mem_of_find?_eq_some hc)
    have hnot := List.find?_some hc
    simp [hblank] at hnot

/-- A comment can stand in a gap. -/
theorem isSkipped_comment {comment : List Char} (h : '\n' ∉ comment) :
    IsSkipped ('#' :: comment) := by
  refine ⟨by simpa using h, fun c hc => ?_⟩
  have hfirst : ('#' :: comment).find? (fun c => !isBlank c) = some '#' := rfl
  exact (Option.some.inj (hfirst.symm.trans hc)).symm

/-- What can stand in a gap can be inserted anywhere in a gap. -/
theorem IsSkipped.insert (h : IsSkipped (left ++ right)) (hinserted : IsSkipped inserted) :
    IsSkipped (left ++ inserted ++ right) := by
  obtain ⟨hfeed, hcomment⟩ := h
  rw [List.mem_append, not_or] at hfeed
  rw [List.find?_append] at hcomment
  refine ⟨?_, fun c hc => ?_⟩
  · simp [hfeed, hinserted.not_lineFeed]
  · rw [List.append_assoc, List.find?_append, List.find?_append] at hc
    cases hleft : left.find? fun c => !isBlank c with
    | some first =>
      rw [hleft] at hc hcomment
      exact hcomment c hc
    | none =>
      rw [hleft] at hc hcomment
      cases hmiddle : inserted.find? fun c => !isBlank c with
      | some first =>
        rw [hmiddle] at hc
        exact hinserted.comment c (hmiddle.trans hc)
      | none =>
        rw [hmiddle] at hc
        exact hcomment c hc

/-- What can stand in a gap can stand behind what can stand in a gap. -/
theorem IsSkipped.append (h : IsSkipped left) (h' : IsSkipped right) :
    IsSkipped (left ++ right) := by
  rw [← List.append_nil left] at h
  have hinsert := h.insert h'
  rwa [List.append_nil] at hinsert

/-- The first character of what stands in a gap belongs to no token. -/
theorem IsSkipped.seam {c : Char} {cs : List Char} (h : IsSkipped (c :: cs)) (rest : List Char) :
    Seam (c :: rest) := by
  cases hblank : isBlank c with
  | true =>
    simp only [isBlank, Bool.or_eq_true, beq_iff_eq] at hblank
    rcases hblank with (rfl | rfl) | rfl
    · exact seam_cons rfl (by decide) (by decide) rest
    · exact seam_cons rfl (by decide) (by decide) rest
    · exact seam_cons rfl (by decide) (by decide) rest
  | false =>
    obtain rfl := h.comment c (by simp [hblank])
    exact seam_cons rfl (by decide) (by decide) rest

/-- What stands in a gap is passed over. Only blanks can stand in front of a token in its line. -/
theorem IsSkipped.behindTrivia_append (h : IsSkipped left)
    (hends : (∀ c ∈ left, isBlank c = true) ∨ EndsComment rest) (hrest : behindTrivia rest = rest) :
    behindTrivia (left ++ rest) = rest := by
  cases hfirst : left.find? fun c => !isBlank c with
  | none =>
    have hblanks : ∀ c ∈ left, isBlank c = true := by simpa using List.find?_eq_none.mp hfirst
    rw [behindTrivia, List.dropWhile_append_of_pos hblanks]
    exact hrest
  | some c =>
    obtain rfl := h.comment c hfirst
    obtain ⟨-, blanks, comment, rfl, hblanks⟩ := List.find?_eq_some_iff_append.mp hfirst
    have hfeed : ∀ d ∈ comment, (d != '\n') = true := by
      intro d hd
      refine bne_iff_ne.mpr fun hsame => h.not_lineFeed ?_
      subst hsame
      exact List.mem_append_right _ (List.mem_cons_of_mem _ hd)
    have hstop : ∀ d, rest.head? = some d → (d != '\n') = false := by
      rcases hends with hall | hends
      · cases hall '#' (List.mem_append_right _ List.mem_cons_self)
      · intro d hd
        rw [hends d hd]
        rfl
    rw [behindTrivia, List.append_assoc, List.dropWhile_append_of_pos (by simpa using hblanks)]
    exact (takeWhile_append_of_boundary hfeed hstop).2

end Skipped

/-- Trivia can stand in a gap: they are blanks, or the comment in them ends with its line. Behind
them nothing is passed over. -/
theorem isSkipped_trivia (cs : List Char) :
    IsSkipped (trivia cs) ∧
      ((∀ c ∈ trivia cs, isBlank c = true) ∨ EndsComment (behindTrivia cs)) ∧
      behindTrivia (behindTrivia cs) = behindTrivia cs := by
  have hblanks : ∀ c ∈ cs.takeWhile isBlank, isBlank c = true :=
    List.all_eq_true.mp List.all_takeWhile
  unfold trivia
  cases hdrop : cs.dropWhile isBlank with
  | nil =>
    have hbehind : behindTrivia cs = [] := by rw [behindTrivia, hdrop]
    rw [hbehind]
    exact ⟨isSkipped_of_blank hblanks, .inl hblanks, rfl⟩
  | cons c rest =>
    by_cases hc : c = '#'
    · subst hc
      have hbehind : behindTrivia cs = rest.dropWhile (· != '\n') := by
        rw [behindTrivia, hdrop]
        rfl
      have hends : EndsComment (behindTrivia cs) := by
        intro d hd
        rw [hbehind] at hd
        simpa using boundary_dropWhile (· != '\n') rest d hd
      have hfeed : '\n' ∉ rest.takeWhile (· != '\n') := by
        intro hmem
        cases List.all_eq_true.mp List.all_takeWhile _ hmem
      refine ⟨?_, .inr hends, ?_⟩
      · exact (isSkipped_of_blank hblanks).append (isSkipped_comment hfeed)
      · cases hrest : behindTrivia cs with
        | nil => rfl
        | cons d more =>
          obtain rfl := hends d (by rw [hrest]; rfl)
          exact behindTrivia_cons rfl (by decide) more
    · have hblank : isBlank c = false := boundary_dropWhile isBlank cs c (by rw [hdrop]; rfl)
      have hbehind : behindTrivia cs = c :: rest := by
        rw [behindTrivia, hdrop]
        split
        · next hsame => exact absurd (List.cons.inj hsame).1 hc
        · rfl
      refine ⟨?_, .inl ?_, ?_⟩
      · simpa [hc] using isSkipped_of_blank hblanks
      · simpa [hc] using hblanks
      · rw [hbehind]
        exact behindTrivia_cons hblank hc rest

/-! ## Gaps and edits -/

/-- The text is `before`, `after` and `rest` in a row, and it falls into `before` and `after` in a
gap: in front of the first token, between two tokens or behind the last one. What is left of the
gap is `after`; with `rest` the next token begins, or the text ends. -/
inductive Gap : List Char → List Char → List Char → List Char → Prop where
  | first {cs before after : List Char} (h : trivia cs = before ++ after) :
      Gap cs before after (behindTrivia cs)
  | next {cs more before after rest : List Char} {c : Char} (text : behindTrivia cs = c :: more)
      (h : Gap (Lexeme.read c more).rest before after rest) :
      Gap cs (trivia cs ++ (Lexeme.read c more).taken ++ before) after rest

/-- The second text is the first one with an edit that changes nothing but the layout: blanks are
inserted in a gap, a comment is inserted in a gap at the end of a line or of the text, a line feed
is inserted in front of or behind a line feed, or one is inserted at the very beginning. -/
inductive Relaid : List Char → List Char → Prop where
  | blanks {cs before after rest inserted : List Char} (h : Gap cs before after rest)
      (hinserted : ∀ c ∈ inserted, isBlank c = true) :
      Relaid cs (before ++ inserted ++ after ++ rest)
  | comment {cs before after rest comment : List Char} (h : Gap cs before after rest)
      (hrest : EndsComment rest) (hcomment : '\n' ∉ comment) :
      Relaid cs (before ++ '#' :: comment ++ after ++ rest)
  | lineFeed (before after : List Char) :
      Relaid (before ++ '\n' :: after) (before ++ '\n' :: '\n' :: after)
  | blankLine (cs : List Char) : Relaid cs ('\n' :: cs)

/-- A text is the trivia in front of its first token, the characters of the token, and the rest. -/
theorem trivia_append_taken {cs more : List Char} {c : Char} (text : behindTrivia cs = c :: more) :
    trivia cs ++ (Lexeme.read c more).taken ++ (Lexeme.read c more).rest = cs := by
  rw [List.append_assoc, (Lexeme.covers_read c more).taken_append_rest, ← text,
    trivia_append_behindTrivia]

/-- The parts of a text with a gap are the text. -/
theorem Gap.append_eq {cs before after rest : List Char} (h : Gap cs before after rest) :
    before ++ after ++ rest = cs := by
  induction h with
  | first htrivia =>
    rw [← htrivia]
    exact trivia_append_behindTrivia _
  | @next cs more before after rest c text h ih =>
    calc trivia cs ++ (Lexeme.read c more).taken ++ before ++ after ++ rest
        = trivia cs ++ (Lexeme.read c more).taken ++ (before ++ after ++ rest) := by simp
      _ = cs := by rw [ih, trivia_append_taken text]

/-! ## What is read behind an edit -/

/-- Texts that are the same behind their trivia are read alike. -/
theorem scan_congr {cs cs' : List Char} (h : behindTrivia cs = behindTrivia cs') :
    scan cs = scan cs' := by
  cases text : behindTrivia cs' with
  | nil => rw [scan_of_eq_nil text, scan_of_eq_nil (h.trans text)]
  | cons c more => rw [scan_of_eq_cons text, scan_of_eq_cons (h.trans text)]

/-- A text without faults in front of which a token stands: its first token, the characters of the
token, and what is read behind it. -/
theorem exists_token_of_scan {cs more : List Char} {c : Char} {terminals : List Terminal}
    (text : behindTrivia cs = c :: more) (h : scan cs = terminals.map .ok) :
    ∃ terminal others, terminals = terminal :: others ∧ terminal.WellFormed ∧
      terminal.kind ≠ .endOfInput ∧ (Lexeme.read c more).taken = terminal.lexeme ∧
      terminal.EndsBefore (Lexeme.read c more).rest ∧
      scan (Lexeme.read c more).rest = others.map .ok := by
  rw [scan_of_eq_cons text] at h
  cases terminals with
  | nil => cases h
  | cons terminal others =>
    obtain ⟨hfirst, hothers⟩ := List.cons.inj h
    cases hreading : (Lexeme.read c more).reading with
    | error fault =>
      rw [hreading] at hfirst
      cases hfirst
    | ok accepted =>
      obtain ⟨kind, word⟩ := accepted
      rw [hreading] at hfirst
      cases hfirst
      obtain ⟨hwell, hend⟩ := Lexeme.isSound_read c more kind word hreading
      obtain ⟨htaken, hends⟩ := Lexeme.isExact_read c more kind word hreading
      exact ⟨_, others, rfl, hwell, hend, htaken, hends, hothers⟩

/-- A token is read behind what stands in a gap, if it was read there and nothing extends it. -/
theorem scan_skipped_lexeme {skipped rest : List Char} {terminal : Terminal}
    (hskipped : IsSkipped skipped)
    (hends : (∀ c ∈ skipped, isBlank c = true) ∨ EndsComment terminal.lexeme)
    (hwell : terminal.WellFormed) (hend : terminal.kind ≠ .endOfInput)
    (hrest : terminal.EndsBefore rest) :
    scan (skipped ++ terminal.lexeme ++ rest) = .ok terminal :: scan rest := by
  obtain ⟨c, cs, hlexeme, hblank, hcomment, -⟩ := Lexeme.readsBack hwell hend hrest
  have hstays : behindTrivia (terminal.lexeme ++ rest) = terminal.lexeme ++ rest := by
    rw [hlexeme]
    exact behindTrivia_cons hblank hcomment _
  have hends' : (∀ c ∈ skipped, isBlank c = true) ∨ EndsComment (terminal.lexeme ++ rest) := by
    rw [hlexeme] at hends ⊢
    exact hends
  rw [← scan_lexeme_append hwell hend hrest, List.append_assoc]
  exact scan_congr ((hskipped.behindTrivia_append hends' hstays).trans hstays.symm)

/-- What stands in front of a token is trivia: only blanks, or the token is a line end. -/
theorem trivia_in_front {cs more : List Char} {c : Char} {terminal : Terminal}
    (text : behindTrivia cs = c :: more)
    (htaken : (Lexeme.read c more).taken = terminal.lexeme) :
    (∀ c ∈ trivia cs, isBlank c = true) ∨ EndsComment terminal.lexeme := by
  refine (isSkipped_trivia cs).2.1.imp_right fun hends d hd => hends d ?_
  have hcovers := Lexeme.covers_read c more
  rw [text, ← hcovers.taken_append_rest, htaken, List.head?_append, hd]
  rfl

/-- A token that ends where it ends also ends there with something inserted in the text behind it,
if that can stand in a gap. -/
theorem Terminal.EndsBefore.insert {terminal : Terminal} {before behind inserted : List Char}
    (h : terminal.EndsBefore (before ++ behind)) (hinserted : IsSkipped inserted) :
    terminal.EndsBefore (before ++ inserted ++ behind) := by
  cases before with
  | cons b before => exact h
  | nil =>
    cases inserted with
    | nil => exact h
    | cons c inserted => exact (hinserted.seam (inserted ++ behind)).endsBefore terminal

/-- Blanks inserted in a gap, or a comment in a gap at the end of a line, change nothing in what is
read. -/
theorem Gap.scan_insert {cs before after rest inserted : List Char} {terminals : List Terminal}
    (h : Gap cs before after rest) (hinserted : IsSkipped inserted)
    (hends : (∀ c ∈ inserted, isBlank c = true) ∨ EndsComment rest)
    (hscan : scan cs = terminals.map .ok) :
    scan (before ++ inserted ++ after ++ rest) = terminals.map .ok := by
  induction h generalizing terminals with
  | @first cs before after htrivia =>
    obtain ⟨hskipped, htriviaEnds, hstays⟩ := isSkipped_trivia cs
    rw [htrivia] at hskipped htriviaEnds
    have hall : (∀ c ∈ before ++ inserted ++ after, isBlank c = true) ∨
        EndsComment (behindTrivia cs) := by
      rcases htriviaEnds with hblanks | hstop
      · refine hends.imp_left fun hinsertedBlanks c hc => ?_
        rw [List.append_assoc, List.mem_append, List.mem_append, or_left_comm] at hc
        rcases hc with hc | hc
        · exact hinsertedBlanks c hc
        · exact hblanks c (List.mem_append.mpr hc)
      · exact .inr hstop
    rw [← hscan]
    exact scan_congr ((hskipped.insert hinserted).behindTrivia_append hall hstays)
  | @next cs more before after rest c text h ih =>
    obtain ⟨terminal, others, rfl, hwell, hend, htaken, hbefore, hothers⟩ :=
      exists_token_of_scan text hscan
    have hbefore' : terminal.EndsBefore (before ++ inserted ++ after ++ rest) := by
      rw [← h.append_eq, List.append_assoc] at hbefore
      rw [List.append_assoc _ after]
      exact hbefore.insert hinserted
    have hfront := scan_skipped_lexeme (isSkipped_trivia cs).1 (trivia_in_front text htaken) hwell
      hend hbefore'
    rw [ih hends hothers] at hfront
    rw [htaken, List.map_cons, ← hfront]
    simp only [List.append_assoc]

/-! ## Line feeds -/

/-- No terminal but the end of a line is written with a line feed. -/
theorem Terminal.WellFormed.lineFeed_notMem {terminal : Terminal} (h : terminal.WellFormed)
    (hkind : terminal.kind ≠ .lineEnd) : '\n' ∉ terminal.lexeme := by
  have htext : ∀ {cs : List Char}, cs.all Lexeme.isTextCharacter = true → '\n' ∉ cs := by
    intro cs hall hmem
    cases List.all_eq_true.mp hall _ hmem
  obtain ⟨kind, text⟩ := terminal
  cases kind with
  | lineEnd => exact absurd rfl hkind
  | endOfInput =>
    obtain rfl : text = "" := h
    exact List.not_mem_nil
  | number => exact htext (all_isTextCharacter_of_isNumeral h)
  | name => exact htext (all_isTextCharacter_of_isWord h.1)
  | text =>
    have hbody := htext (List.all_eq_true.mpr h)
    simpa [lexeme] using hbody
  | keyword k =>
    obtain rfl : text = k.spelling := h
    refine htext ?_
    cases k <;> decide
  | operator o =>
    obtain rfl : text = o.spelling := h
    exact htext (all_isTextCharacter_spelling o)

/-- A text without faults that ends with a line feed is read with a line end as its last token. -/
theorem exists_lineEnd_of_scan {cs : List Char} {terminals : List Terminal}
    (hscan : scan cs = terminals.map .ok) (hlast : cs.getLast? = some '\n') :
    ∃ front, terminals = front ++ [.lineEnd] := by
  fun_induction scan cs generalizing terminals with
  | case1 cs text =>
    have hmem := mem_behindTrivia (List.mem_of_getLast? hlast)
    rw [text] at hmem
    cases hmem
  | case2 cs c more text ih =>
    rw [← scan_of_eq_cons text] at hscan
    obtain ⟨terminal, others, rfl, hwell, hend, htaken, -, hothers⟩ :=
      exists_token_of_scan text hscan
    have hwhole : trivia cs ++ terminal.lexeme ++ (Lexeme.read c more).rest = cs :=
      htaken ▸ trivia_append_taken text
    cases hrest : (Lexeme.read c more).rest with
    | cons d rest =>
      have hlast' : (Lexeme.read c more).rest.getLast? = some '\n' := by
        rw [← hwhole, List.getLast?_append, hrest] at hlast
        rw [hrest]
        simpa [List.getLast?_cons] using hlast
      obtain ⟨front, rfl⟩ := ih hothers hlast'
      exact ⟨terminal :: front, rfl⟩
    | nil =>
      -- the line feed is in the last token, so the token is a line end
      rw [hrest, scan_of_eq_nil rfl] at hothers
      obtain rfl := List.map_eq_nil_iff.mp hothers.symm
      have hmem : '\n' ∈ trivia cs ++ terminal.lexeme := by
        rw [hrest, List.append_nil] at hwhole
        rw [hwhole]
        exact List.mem_of_getLast? hlast
      rcases List.mem_append.mp hmem with hmem | hmem
      · exact absurd hmem (isSkipped_trivia cs).1.not_lineFeed
      · by_cases hkind : terminal.kind = .lineEnd
        · exact ⟨[], by rw [hwell.eq_of_kind.2.1 hkind]; rfl⟩
        · exact absurd hmem (hwell.lineFeed_notMem hkind)

/-- A line feed at the beginning of a text is read as a line end. -/
theorem scan_lineFeed (cs : List Char) : scan ('\n' :: cs) = .ok .lineEnd :: scan cs := by
  have hwell : Terminal.lineEnd.WellFormed := rfl
  exact scan_lexeme_append hwell Kind.noConfusion (Lexeme.endsBefore_of_forall (fun _ => rfl) cs)

/-- One line end more, directly behind another one. -/
inductive Doubled : List Terminal → List Terminal → Prop where
  | intro (front back : List Terminal) :
      Doubled (front ++ .lineEnd :: back) (front ++ .lineEnd :: .lineEnd :: back)

/-- A line feed behind a line feed is read as a line end behind a line end. -/
theorem scan_double {before after : List Char} {terminals : List Terminal}
    (hscan : scan (before ++ '\n' :: after) = terminals.map .ok) :
    ∃ terminals', scan (before ++ '\n' :: '\n' :: after) = terminals'.map .ok ∧
      Doubled terminals terminals' := by
  have hends : EndsLine (before ++ ['\n']) := by
    intro c hc
    simpa using hc.symm
  have hsplit : ∀ tail, before ++ '\n' :: tail = before ++ ['\n'] ++ tail := by
    intro tail
    simp
  rw [hsplit, scan_append hends] at hscan
  obtain ⟨first, others, rfl, hfirst, hothers⟩ := List.append_eq_map_iff.mp hscan
  obtain ⟨front, rfl⟩ := exists_lineEnd_of_scan hfirst.symm (by simp)
  refine ⟨front ++ .lineEnd :: .lineEnd :: others, ?_, ?_⟩
  · rw [hsplit, scan_append hends, scan_lineFeed, ← hfirst, ← hothers]
    simp
  · rw [List.append_assoc]
    exact .intro front others

/-- An edit of the layout leaves the terminals as they are, or adds a line end behind another one or
in front of all. -/
theorem Relaid.scan {cs cs' : List Char} {terminals : List Terminal} (h : Relaid cs cs')
    (hscan : scan cs = terminals.map .ok) :
    ∃ terminals', BasicCompiler.scan cs' = terminals'.map .ok ∧
      (terminals' = terminals ∨ Doubled terminals terminals' ∨
        terminals' = .lineEnd :: terminals) := by
  cases h with
  | blanks h hinserted =>
    exact ⟨terminals, h.scan_insert (isSkipped_of_blank hinserted) (.inl hinserted) hscan, .inl rfl⟩
  | comment h hrest hcomment =>
    exact ⟨terminals, h.scan_insert (isSkipped_comment hcomment) (.inr hrest) hscan, .inl rfl⟩
  | lineFeed before after =>
    obtain ⟨terminals', hscan', hdoubled⟩ := scan_double hscan
    exact ⟨terminals', hscan', .inr (.inl hdoubled)⟩
  | blankLine =>
    refine ⟨.lineEnd :: terminals, ?_, .inr (.inr rfl)⟩
    rw [scan_lineFeed, hscan, List.map_cons]

/-! ## Line ends with a carriage return -/

/-- The text with a carriage return in front of every line feed. -/
def withReturns (cs : List Char) : List Char :=
  cs.flatMap fun c => if c = '\n' then ['\r', '\n'] else [c]

/-- A text without line feeds gets no carriage returns. -/
theorem withReturns_of_notMem {cs : List Char} (h : '\n' ∉ cs) : withReturns cs = cs := by
  induction cs with
  | nil => rfl
  | cons c cs ih =>
    rw [List.mem_cons, not_or] at h
    have hc : c ≠ '\n' := fun hsame => h.1 hsame.symm
    show (if c = '\n' then _ else [c]) ++ withReturns cs = c :: cs
    rw [if_neg hc, ih h.2]
    rfl

/-- Two texts in a row get their carriage returns one after the other. -/
theorem withReturns_append (cs cs' : List Char) :
    withReturns (cs ++ cs') = withReturns cs ++ withReturns cs' :=
  List.flatMap_append

/-- A token that nothing extends is not extended by a carriage return. -/
theorem Terminal.EndsBefore.withReturns {terminal : Terminal} {rest : List Char}
    (h : terminal.EndsBefore rest) : terminal.EndsBefore (withReturns rest) := by
  cases rest with
  | nil => exact h
  | cons c rest =>
    by_cases hc : c = '\n'
    · subst hc
      exact (seam_cons rfl (by decide) (by decide) _ : Seam ('\r' :: _)).endsBefore terminal
    · have hfirst : BasicCompiler.withReturns (c :: rest) =
          c :: BasicCompiler.withReturns rest := by
        show (if c = '\n' then _ else [c]) ++ _ = _
        rw [if_neg hc]
        rfl
      rw [hfirst]
      exact h

/-- Carriage returns in front of the line feeds change nothing in what is read. -/
theorem scan_withReturns {cs : List Char} {terminals : List Terminal}
    (hscan : scan cs = terminals.map .ok) : scan (withReturns cs) = terminals.map .ok := by
  fun_induction scan cs generalizing terminals with
  | case1 cs text =>
    have hwhole := trivia_append_behindTrivia cs
    rw [text, List.append_nil] at hwhole
    have hfeed := (isSkipped_trivia cs).1.not_lineFeed
    rw [hwhole] at hfeed
    rw [withReturns_of_notMem hfeed, scan_of_eq_nil text]
    exact hscan
  | case2 cs c more text ih =>
    rw [← scan_of_eq_cons text] at hscan
    obtain ⟨terminal, others, rfl, hwell, hend, htaken, hbefore, hothers⟩ :=
      exists_token_of_scan text hscan
    have hwhole : trivia cs ++ terminal.lexeme ++ (Lexeme.read c more).rest = cs :=
      htaken ▸ trivia_append_taken text
    obtain ⟨hskipped, -, -⟩ := isSkipped_trivia cs
    have hbehind := hbefore.withReturns
    by_cases hkind : terminal.kind = .lineEnd
    · -- the carriage return joins what stands in front of the line feed
      obtain rfl := hwell.eq_of_kind.2.1 hkind
      have hreturn : IsSkipped (trivia cs ++ ['\r']) :=
        hskipped.append (isSkipped_of_blank (by simp [isBlank]))
      have hstop : EndsComment Terminal.lineEnd.lexeme := by
        intro d hd
        exact (Option.some.inj hd).symm
      have hfront := scan_skipped_lexeme hreturn (.inr hstop) hwell hend hbehind
      have hline : withReturns Terminal.lineEnd.lexeme = '\r' :: Terminal.lineEnd.lexeme := rfl
      rw [← hwhole, withReturns_append, withReturns_append, hline,
        withReturns_of_notMem hskipped.not_lineFeed, List.map_cons, ← ih hothers, ← hfront]
      simp
    · have hfront := scan_skipped_lexeme hskipped (trivia_in_front text htaken) hwell hend hbehind
      rw [← hwhole, withReturns_append, withReturns_append,
        withReturns_of_notMem hskipped.not_lineFeed,
        withReturns_of_notMem (hwell.lineFeed_notMem hkind), hfront, ih hothers, List.map_cons]

end BasicCompiler
