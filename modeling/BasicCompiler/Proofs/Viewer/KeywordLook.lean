import BasicCompiler.Proofs.Viewer.KeywordMarks

/-!
# The look of reserved words

Which characters of a line of source text look like a reserved word, and which of them belong to
one. Read `keyword_look_iff` first: on a line that is read without a fault, the characters of a
reserved word look like one unless a number stands directly in front of it, and no other characters
do.
-/

namespace BasicCompiler.Viewer.SourceText

/-! ## Rows of segments -/

/-- For every character of a row of segments, whether it belongs to a reserved word that no number
stands directly in front of. In front of the whole row stands a number or not. -/
def keywordPlaces (behindNumber : Bool) : List Segment → List Char → List Bool
  | [], last => List.replicate last.length false
  | segment :: segments, last =>
    List.replicate segment.skipped.length false ++
      (List.replicate segment.token.terminal.lexeme.length
          (segment.token.kind.isKeyword && !(behindNumber && segment.skipped.isEmpty)) ++
        keywordPlaces (segment.token.kind == .number) segments last)

section

variable {location : Location} {segment : Segment} {segments : List Segment} {last : List Char}

/-- In one line only blanks are passed over in front of a token. -/
theorem isBlank_of_fits {rest : List Char} (h : segment.Fits location rest)
    (hline : '\n' ∉ segment.token.terminal.lexeme) : ∀ c ∈ segment.skipped, isBlank c = true := by
  refine h.gap.ends.resolve_right fun hcomment => hline ?_
  obtain ⟨c, cs, hlexeme, -⟩ := Lexeme.readsBack h.wellFormed h.not_endOfInput h.endsBefore
  have hc : c = '\n' := hcomment c (by rw [hlexeme]; rfl)
  rw [hlexeme, hc]
  exact List.mem_cons_self

/-- A row of segments starts well. -/
theorem startsWell_joined (hfit : Segment.AllFit location segments last)
    (hlast : FillsGap last []) : StartsWell (Segment.joined segments last) := by
  have hskipped : ∀ skipped, IsSkipped skipped → StartsWell skipped := by
    intro skipped h c hc hword
    rw [isWordCharacter_of_isSkipped h c hc] at hword
    cases hword
  cases segments with
  | nil => exact hskipped last hlast.isSkipped
  | cons segment segments =>
    obtain ⟨hfirst, -⟩ := Segment.allFit_cons.mp hfit
    rw [Segment.joined_cons]
    cases hempty : segment.skipped with
    | nil => exact (shape hfirst.wellFormed hfirst.not_endOfInput).startsWell _
    | cons c cs =>
      have hstarts := hskipped _ hfirst.gap.isSkipped
      rw [hempty] at hstarts
      exact fun d hd => hstarts d hd

/-- A number in front of a row makes no difference unless a reserved word follows directly. -/
theorem keywordPlaces_true (h : segment.skipped ≠ [] ∨ segment.token.kind.isKeyword = false) :
    keywordPlaces true (segment :: segments) last =
      keywordPlaces false (segment :: segments) last := by
  rw [keywordPlaces, keywordPlaces]
  rcases h with hskipped | hkeyword
  · rw [List.isEmpty_eq_false_iff.mpr hskipped, Bool.and_false, Bool.and_false]
  · rw [hkeyword, Bool.false_and, Bool.false_and]

/-- A number in front of a row is not marked, and a word directly behind it is not marked either. -/
theorem keywordMarks_numeral_joined {numeral : List Char} (h : IsNumeral numeral)
    (hends : ∀ c, (Segment.joined segments last).head? = some c → c.isDigit = false)
    (hfit : Segment.AllFit location segments last) (hlast : FillsGap last [])
    (hrow : keywordMarks (Segment.joined segments last) = keywordPlaces false segments last)
    (hothers : keywordMarks (Segment.joined segments.tail last) =
      keywordPlaces false segments.tail last) :
    keywordMarks (numeral ++ Segment.joined segments last) =
      List.replicate numeral.length false ++ keywordPlaces true segments last := by
  -- where no word stands directly behind it, the number is a word of its own
  have happart : (∀ c, (Segment.joined segments last).head? = some c →
      isWordCharacter c = false) →
      keywordMarks (numeral ++ Segment.joined segments last) =
        List.replicate numeral.length false ++ keywordPlaces false segments last := by
    intro hhead
    rw [← hrow]
    exact @keywordMarks_numeral numeral [] _ h (List.forall_mem_nil _) hhead
  cases segments with
  | nil => exact happart (isWordCharacter_of_isSkipped hlast.isSkipped)
  | cons segment segments =>
    obtain ⟨hfirst, hfit⟩ := Segment.allFit_cons.mp hfit
    rw [Segment.joined_cons] at hends happart ⊢
    rw [List.tail_cons] at hothers
    cases hskipped : segment.skipped with
    | cons c cs =>
      have hhead := isWordCharacter_of_isSkipped hfirst.gap.isSkipped
      rw [hskipped] at hhead happart
      rw [keywordPlaces_true (.inl (by simp [hskipped]))]
      exact happart fun d hd => hhead d hd
    | nil =>
      rw [hskipped, List.nil_append] at hends happart
      rw [List.nil_append]
      cases shape hfirst.wellFormed hfirst.not_endOfInput with
      | word isWord not_number extended _ =>
        have hbehind := not_word_of_endsBefore extended hfirst.endsBefore
          (startsWell_joined hfit hlast)
        have hkind : (segment.token.kind == .number) = false := beq_eq_false_iff_ne.mpr not_number
        rw [keywordMarks_numeral h (isWordCharacter_of_isWord isWord) hbehind, keywordPlaces,
          hskipped, hkind, ← hothers]
        simp
      | numeral isNumeral _ =>
        obtain ⟨c, cs, hlexeme, hc, -⟩ := isNumeral.exists_cons
        rw [hlexeme] at hends
        rw [hends c rfl] at hc
        cases hc
      | other _ not_keyword first _ =>
        obtain ⟨c, cs, hlexeme, hc⟩ := first
        rw [keywordPlaces_true (.inr not_keyword)]
        rw [hlexeme] at happart ⊢
        exact happart (boundary_cons hc _)

/-- The marks of a token in front of a row, if those of the row are known. -/
theorem keywordMarks_lexeme_joined {terminal : Terminal} (hshape : Shape terminal)
    (hends : terminal.EndsBefore (Segment.joined segments last))
    (hfit : Segment.AllFit location segments last) (hlast : FillsGap last [])
    (hrow : keywordMarks (Segment.joined segments last) = keywordPlaces false segments last)
    (hothers : keywordMarks (Segment.joined segments.tail last) =
      keywordPlaces false segments.tail last) :
    keywordMarks (terminal.lexeme ++ Segment.joined segments last) =
      List.replicate terminal.lexeme.length terminal.kind.isKeyword ++
        keywordPlaces (terminal.kind == .number) segments last := by
  by_cases hnumber : terminal.kind = .number
  · have hdigit : ∀ c, (Segment.joined segments last).head? = some c → c.isDigit = false := by
      intro c hc
      have hextended := hends c hc
      simp only [Terminal.extendedBy, hnumber, Bool.or_eq_false_iff] at hextended
      exact hextended.1
    have hnumeral : IsNumeral terminal.lexeme := by
      cases hshape with
      | numeral isNumeral => exact isNumeral
      | word _ not_number | other not_number => exact absurd hnumber not_number
    rw [keywordMarks_numeral_joined hnumeral hdigit hfit hlast hrow hothers, hnumber]
    rfl
  · rw [hshape.keywordMarks_append hnumber hends (startsWell_joined hfit hlast), hrow,
      beq_eq_false_iff_ne.mpr hnumber]

/-- The marks of a line that is a row of segments. -/
theorem keywordMarks_joined (hline : '\n' ∉ Segment.joined segments last)
    (hfit : Segment.AllFit location segments last) (hlast : FillsGap last []) :
    keywordMarks (Segment.joined segments last) = keywordPlaces false segments last ∧
      keywordMarks (Segment.joined segments.tail last) =
        keywordPlaces false segments.tail last := by
  -- the marks of a token depend on the two segments behind it, so the induction keeps both
  induction segments generalizing location with
  | nil =>
    have hrow := keywordMarks_skipped hlast.isSkipped
    exact ⟨hrow, hrow⟩
  | cons segment segments ih =>
    obtain ⟨hfirst, hfit⟩ := Segment.allFit_cons.mp hfit
    obtain ⟨hlexemeLine, hline⟩ := Segment.lineFeed_notMem hline
    obtain ⟨hrow, hothers⟩ := ih hline hfit
    refine ⟨?_, hrow⟩
    have hplain : ∀ c ∈ segment.skipped, IsPlain c :=
      fun c hc => isPlain_of_isBlank (isBlank_of_fits hfirst hlexemeLine c hc)
    have hshape := shape hfirst.wellFormed hfirst.not_endOfInput
    rw [Segment.joined_cons, keywordMarks_plain hplain, keywordMarks_lexeme_joined hshape
      hfirst.endsBefore hfit hlast hrow hothers, keywordPlaces, Bool.false_and, Bool.not_false,
      Bool.and_true]
    rfl

/-- The places of reserved words in a row are the columns of its tokens. -/
theorem getElem?_keywordPlaces (hline : '\n' ∉ Segment.joined segments last)
    (hfit : Segment.AllFit location segments last) (behindNumber : Bool) (i : Nat) :
    (keywordPlaces behindNumber segments last)[i]? = some true ↔
      Token.KeywordAt behindNumber location.column (segments.map Segment.token)
        (location.column + i) := by
  induction segments generalizing location behindNumber i with
  | nil => simp [keywordPlaces, Token.KeywordAt, List.getElem?_replicate]
  | cons segment segments ih =>
    have horder := Segment.inOrder_of_allFit hline hfit
    obtain ⟨hfirst, hfit⟩ := Segment.allFit_cons.mp hfit
    obtain ⟨hlexemeLine, hline⟩ := Segment.lineFeed_notMem hline
    obtain ⟨hcolumn, hend⟩ := hfirst.column_eq hlexemeLine
    have hothers := Segment.inOrder_of_allFit hline hfit
    have hrest := ih hline hfit (segment.token.kind == .number)
    rw [hend] at hothers hrest
    have hlength : segment.token.endColumn =
        segment.token.location.column + segment.token.terminal.lexeme.length := rfl
    have hnot : location.column + i < segment.token.endColumn →
        ¬ Token.KeywordAt (segment.token.kind == .number) segment.token.endColumn
          (segments.map Segment.token) (location.column + i) :=
      fun hcolumn => hothers.not_keywordAt hcolumn _
    rw [keywordPlaces, List.map_cons, Token.keywordAt_cons horder, Token.Covers]
    by_cases hskipped : i < segment.skipped.length
    · -- the column is in front of the token
      have hmark : ¬ segment.token.location.column ≤ location.column + i := by omega
      rw [List.getElem?_append_left (by simpa using hskipped)]
      simp [hskipped, hmark, hnot (by omega)]
    rw [List.getElem?_append_right (by simpa using hskipped), List.length_replicate]
    by_cases hlexeme : i - segment.skipped.length < segment.token.terminal.lexeme.length
    · -- the column is one of the token
      have hstart : segment.token.location.column ≤ location.column + i := by omega
      have hbehind : location.column + i < segment.token.endColumn := by omega
      have hempty : segment.token.location.column = location.column ↔ segment.skipped = [] := by
        rw [← List.length_eq_zero_iff]
        omega
      rw [List.getElem?_append_left (by simpa using hlexeme), hempty]
      cases behindNumber with
      | false => simp [hlexeme, hstart, hbehind, hnot hbehind]
      | true => simp [hlexeme, hstart, hbehind, hnot hbehind]
    · -- the column is behind the token
      have hbehind : ¬ location.column + i < segment.token.endColumn := by omega
      rw [List.getElem?_append_right (by simpa using hlexeme), List.length_replicate, hrest]
      have hcolumn' : segment.token.endColumn +
          (i - segment.skipped.length - segment.token.terminal.lexeme.length) =
            location.column + i := by
        omega
      simp [hbehind, hcolumn']

end

/-! ## Lines -/

/-- The character at the place looks like one of a reserved word. -/
def DrawnAsKeyword (line : List Char) (i : Nat) : Prop :=
  (styles line)[i]? = some keywordStyle

instance (line : List Char) (i : Nat) : Decidable (DrawnAsKeyword line i) :=
  inferInstanceAs (Decidable (_ = _))

/-- The marks of a line say which characters look like a reserved word. -/
theorem drawnAsKeyword_iff {line : List Char} {i : Nat} :
    DrawnAsKeyword line i ↔ (keywordMarks line)[i]? = some true := by
  simp [DrawnAsKeyword, keywordMarks]

/-- In a row of segments the characters of reserved words look like such, unless a number stands
directly in front of the word. -/
theorem drawnAsKeyword_joined {segments : List Segment} {last : List Char}
    (hline : '\n' ∉ Segment.joined segments last) (hfit : Segment.AllFit .start segments last)
    (hlast : FillsGap last []) (i : Nat) :
    DrawnAsKeyword (Segment.joined segments last) i ↔
      Token.KeywordAt false 1 (segments.map Segment.token) (i + 1) := by
  rw [drawnAsKeyword_iff, (keywordMarks_joined hline hfit hlast).1,
    getElem?_keywordPlaces hline hfit, Nat.add_comm]
  rfl

/-- In a line that is read without a fault, the characters that look like a reserved word are those
of the reserved words that do not stand directly behind a number. So the look of a line agrees with
its tokens exactly if no reserved word stands directly behind a number. -/
theorem keyword_look_iff {line : String} {tokens : List Token} (hline : '\n' ∉ line.toList)
    (h : (Cursor.ofSource line).Reads tokens) :
    (∀ i, DrawnAsKeyword line.toList i ↔
      ∃ token ∈ tokens, token.kind.isKeyword = true ∧ token.Covers (i + 1) ∧
        ¬ Token.BehindNumber tokens token) ∧
    ((∀ i, DrawnAsKeyword line.toList i ↔
        ∃ token ∈ tokens, token.kind.isKeyword = true ∧ token.Covers (i + 1)) ↔
      ∀ token ∈ tokens, token.kind.isKeyword = true → ¬ Token.BehindNumber tokens token) := by
  obtain ⟨segments, last, htext, hfit, hlast, rfl⟩ := Cursor.exists_segments_of_reads h
  clear h
  generalize (Cursor.ofSource line).location.after (Cursor.ofSource line).rest = finish
  have htext : line.toList = Segment.joined segments last := htext
  rw [htext] at hline ⊢
  have hlook := fun i => (drawnAsKeyword_joined hline hfit hlast i).trans
    (Token.keywordAt_endOfInput _ finish _ _)
  refine ⟨hlook, fun hagree token htoken hkeyword hbehind => ?_, fun hapart i => ?_⟩
  · -- the first column of the word belongs to no other token
    have horder := Segment.inOrder_of_allFit hline hfit
    have hmem : ∀ token ∈ segments.map Segment.token ++ [.endOfInput finish],
        token.kind.isKeyword = true → token ∈ segments.map Segment.token := by
      intro token htoken hkeyword
      rcases List.mem_append.mp htoken with hmem | hmem
      · exact hmem
      · obtain rfl := List.mem_singleton.mp hmem
        cases hkeyword
    obtain ⟨hfirst, hlength⟩ := horder.bounds token (hmem token htoken hkeyword)
    have hcolumn : token.location.column - 1 + 1 = token.location.column :=
      Nat.sub_add_cancel hfirst
    have hcovers : token.Covers (token.location.column - 1 + 1) := by
      rw [hcolumn]
      exact ⟨Nat.le_refl _, hlength⟩
    obtain ⟨other, hother, hkeyword', hcovers', hapart⟩ :=
      (hlook _).mp ((hagree _).mpr ⟨token, htoken, hkeyword, hcovers⟩)
    obtain rfl := horder.eq_of_covers (hmem _ htoken hkeyword) (hmem _ hother hkeyword') hcovers
      hcovers'
    exact hapart hbehind
  · rw [hlook i]
    constructor
    · rintro ⟨token, htoken, hkeyword, hcovers, -⟩
      exact ⟨token, htoken, hkeyword, hcovers⟩
    · rintro ⟨token, htoken, hkeyword, hcovers⟩
      exact ⟨token, htoken, hkeyword, hcovers, hapart token htoken hkeyword⟩

/-- A line with a reserved word in quotes and one in a comment looks as it is read: the words that
look like reserved words are the first one and the one behind a number and a space. -/
theorem keyword_look_iff_quoted :
    (Cursor.ofSource "PRINT 1 IF \"LET\" # LET").Reads
        [⟨.keyword .PRINT, "PRINT", ⟨1, 1⟩⟩, ⟨.number, "1", ⟨1, 7⟩⟩, ⟨.keyword .IF, "IF", ⟨1, 9⟩⟩,
          ⟨.text, "LET", ⟨1, 12⟩⟩, ⟨.endOfInput, "", ⟨1, 23⟩⟩] ∧
      ∀ i, DrawnAsKeyword "PRINT 1 IF \"LET\" # LET".toList i ↔ i < 5 ∨ 8 ≤ i ∧ i < 10 := by
  have hreads : (Cursor.ofSource "PRINT 1 IF \"LET\" # LET").Reads
      [⟨.keyword .PRINT, "PRINT", ⟨1, 1⟩⟩, ⟨.number, "1", ⟨1, 7⟩⟩, ⟨.keyword .IF, "IF", ⟨1, 9⟩⟩,
        ⟨.text, "LET", ⟨1, 12⟩⟩, ⟨.endOfInput, "", ⟨1, 23⟩⟩] := by
    iterate 4 refine .token rfl (by decide) ?_
    exact .finish rfl rfl
  refine ⟨hreads, fun i => ?_⟩
  have hagree := (keyword_look_iff (by decide) hreads).2.mpr (by decide)
  have hfirst : ∀ column, Token.Covers ⟨.keyword .PRINT, "PRINT", ⟨1, 1⟩⟩ column ↔
      1 ≤ column ∧ column < 6 := fun _ => Iff.rfl
  have hsecond : ∀ column, Token.Covers ⟨.keyword .IF, "IF", ⟨1, 9⟩⟩ column ↔
      9 ≤ column ∧ column < 11 := fun _ => Iff.rfl
  rw [hagree i]
  simp only [List.mem_cons, List.not_mem_nil, or_false, exists_eq_or_imp, exists_eq_left,
    Kind.isKeyword, hfirst, hsecond, Bool.false_eq_true, false_and, true_and, false_or]
  omega

/-- Directly behind the number at the end of a condition, a reserved word is read as one and does
not look like one. -/
theorem keyword_look_fails_behind_number :
    ∃ tokens, '\n' ∉ "IF 1 == 1THEN".toList ∧ (Cursor.ofSource "IF 1 == 1THEN").Reads tokens ∧
      (∃ token ∈ tokens, token.kind = .keyword .THEN ∧ token.Covers 10) ∧
      ¬ DrawnAsKeyword "IF 1 == 1THEN".toList 9 := by
  have hreads : (Cursor.ofSource "IF 1 == 1THEN").Reads
      [⟨.keyword .IF, "IF", ⟨1, 1⟩⟩, ⟨.number, "1", ⟨1, 4⟩⟩, ⟨.operator .equal, "==", ⟨1, 6⟩⟩,
        ⟨.number, "1", ⟨1, 9⟩⟩, ⟨.keyword .THEN, "THEN", ⟨1, 10⟩⟩, ⟨.endOfInput, "", ⟨1, 14⟩⟩] := by
    iterate 5 refine .token rfl (by decide) ?_
    exact .finish rfl rfl
  refine ⟨_, by decide, hreads, ?_, by decide +kernel⟩
  exact ⟨⟨.keyword .THEN, "THEN", ⟨1, 10⟩⟩, by simp, rfl, by decide, by decide⟩

end BasicCompiler.Viewer.SourceText
