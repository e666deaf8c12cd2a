import BasicCompiler.Proofs.Lexing.Columns
import BasicCompiler.Proofs.Viewer.LineScan

/-!
# The look of a token

Which characters look like a reserved word, for each of the pieces that a line of source text
consists of. Highlighting and reading cut a line by different rules, and `Shape` lists the ways in
which highlighting meets a token. Read `Shape.keywordMarks_append` first: a token that is no number
looks like a reserved word exactly if it is one. `keywordMarks_numeral` says that a number and a
word directly behind it are one word for highlighting, and not a reserved one.
-/

namespace BasicCompiler

/-- Reserved words are words. -/
theorem Keyword.isWord_spelling (keyword : Keyword) : IsWord keyword.spelling.toList := by
  cases keyword <;> exact .intro rfl (List.all_eq_true.mp rfl)

/-- No reserved word begins with a digit. -/
theorem Keyword.ofSpelling?_of_isDigit {c : Char} (h : c.isDigit = true) (cs : List Char) :
    ofSpelling? (String.ofList (c :: cs)) = none := by
  rw [Option.eq_none_iff_forall_ne_some]
  intro keyword hkeyword
  have hword := keyword.isWord_spelling
  rw [ofSpelling?_eq_some_iff.mp hkeyword, String.toList_ofList] at hword
  cases hword with
  | intro hletter _ => simp [isDigit_of_isAlpha hletter] at h

namespace Viewer.SourceText

/-! ## Marks -/

/-- The look of a reserved word. -/
def keywordStyle : Style :=
  (Style.colored Palette.keyword).emphasized

/-- The styles of the characters of a line, one by one. -/
def styles (line : List Char) : List Style :=
  (highlight line).flatMap fun span => List.replicate span.text.length span.style

/-- For every character of a line, whether it looks like a reserved word. -/
def keywordMarks (line : List Char) : List Bool :=
  (styles line).map fun style => decide (style = keywordStyle)

/-- The character is neither part of a word nor the beginning of a comment or a quoted text. -/
structure IsPlain (c : Char) : Prop where
  not_word : isWordCharacter c = false
  not_comment : c ≠ '#'
  not_quote : c ≠ '"'

/-- Only words look like reserved words. -/
theorem style_ne_keywordStyle (c : Char) : scanner.style c ≠ keywordStyle := by
  simp only [scanner]
  repeat' split
  all_goals decide

/-- A word looks like a reserved word exactly if it is one. -/
theorem wordStyle_eq_keywordStyle (word : List Char) :
    decide (wordStyle word = keywordStyle) = (Keyword.ofSpelling? (String.ofList word)).isSome := by
  unfold wordStyle
  split
  · next h => simpa [keywordStyle] using h.symm
  · next h =>
    rw [Bool.not_eq_true] at h
    rw [h]
    split
    · decide
    · decide

/-- The marks of a line whose first span is known. -/
theorem keywordMarks_of_highlight {line rest : List Char} {span : Span}
    (h : highlight line = span :: highlight rest) :
    keywordMarks line = List.replicate span.text.length (decide (span.style = keywordStyle)) ++
      keywordMarks rest := by
  simp [keywordMarks, styles, h]

/-- A word is marked if it is reserved. -/
theorem keywordMarks_word {word rest : List Char} (hne : word ≠ [])
    (hword : ∀ c ∈ word, isWordCharacter c = true)
    (hrest : ∀ c, rest.head? = some c → isWordCharacter c = false) :
    keywordMarks (word ++ rest) =
      List.replicate word.length (Keyword.ofSpelling? (String.ofList word)).isSome ++
        keywordMarks rest := by
  rw [keywordMarks_of_highlight (agrees_scanner.spans_word hne hword hrest), ←
    wordStyle_eq_keywordStyle]
  rfl

/-- A span that is no word is not marked. -/
theorem keywordMarks_span {c : Char} {taken rest : List Char} (hc : isWordCharacter c = false)
    (htake : (taken ++ rest).take (highlighter c (taken ++ rest)).2 = taken)
    (hdrop : (taken ++ rest).drop (highlighter c (taken ++ rest)).2 = rest) :
    keywordMarks (c :: (taken ++ rest)) =
      List.replicate (c :: taken).length false ++ keywordMarks rest := by
  have hspans := highlighter.spans_cons c (taken ++ rest)
  rw [htake, hdrop, agrees_scanner.style c _ hc] at hspans
  rw [keywordMarks_of_highlight hspans, decide_eq_false (style_ne_keywordStyle c)]

/-- Plain characters are not marked. -/
theorem keywordMarks_plain {run : List Char} (h : ∀ c ∈ run, IsPlain c) (rest : List Char) :
    keywordMarks (run ++ rest) = List.replicate run.length false ++ keywordMarks rest := by
  induction run with
  | nil => rfl
  | cons c run ih =>
    have hplain := h c List.mem_cons_self
    have hreach : (highlighter c (run ++ rest)).2 = 0 := by
      simp [highlighter, hplain.not_word, hplain.not_comment, hplain.not_quote]
    have hspan := @keywordMarks_span c [] (run ++ rest) hplain.not_word
      (by simp [hreach]) (by simp [hreach])
    rw [List.nil_append, ih fun d hd => h d (List.mem_cons_of_mem _ hd)] at hspan
    rw [List.cons_append, hspan, List.length_cons, List.replicate_succ]
    rfl

/-- A comment is not marked. -/
theorem keywordMarks_comment (cs : List Char) :
    keywordMarks ('#' :: cs) = List.replicate (cs.length + 1) false := by
  have hspan := @keywordMarks_span '#' cs [] (by decide)
    (by simp [highlighter]) (by simp [highlighter])
  rwa [List.append_nil, show keywordMarks [] = [] by decide +kernel, List.append_nil] at hspan

/-- A quoted text is not marked. -/
theorem keywordMarks_quoted {body : List Char} (h : ∀ c ∈ body, c ≠ '"') (rest : List Char) :
    keywordMarks ('"' :: body ++ ['"'] ++ rest) =
      List.replicate ('"' :: body ++ ['"']).length false ++ keywordMarks rest := by
  have hbody : ((body ++ ['"'] ++ rest).takeWhile (· != '"')) = body := by
    rw [List.append_assoc]
    exact (takeWhile_append_of_boundary (fun c hc => bne_iff_ne.mpr (h c hc))
      (boundary_cons (by decide) rest)).1
  have hreach : (highlighter '"' (body ++ ['"'] ++ rest)).2 = (body ++ ['"']).length := by
    have hne : ¬ '"' = '#' := by decide
    rw [highlighter, if_neg hne, if_pos rfl, hbody, List.length_append]
    rfl
  exact @keywordMarks_span '"' (body ++ ['"']) rest (by decide)
    (by rw [hreach, List.take_left]) (by rw [hreach, List.drop_left])

/-! ## Lexemes -/

/-- The letters and digits of names are characters of words. -/
theorem isWordCharacter_of_isAlphanum {c : Char} (h : c.isAlphanum = true) :
    isWordCharacter c = true := by
  rw [isWordCharacter, Text.isAlphanumeric_of_isAlphanum h, Bool.true_or]

/-- Words consist of characters of words. -/
theorem isWordCharacter_of_isWord {word : List Char} (h : IsWord word) :
    ∀ c ∈ word, isWordCharacter c = true := by
  cases h with
  | intro hfirst hmore =>
    exact List.forall_mem_cons.mpr
      ⟨isWordCharacter_of_isAlphanum (Text.isAlphanum_of_isAlpha hfirst),
        fun c hc => isWordCharacter_of_isAlphanum (hmore c hc)⟩

/-- Numerals consist of characters of words. -/
theorem isWordCharacter_of_isNumeral {numeral : List Char} (h : IsNumeral numeral) :
    ∀ c ∈ numeral, isWordCharacter c = true := by
  have hdigit : ∀ c, c.isDigit = true → isWordCharacter c = true :=
    fun c hc => isWordCharacter_of_isAlphanum (Text.isAlphanum_of_isDigit hc)
  obtain ⟨first, more, rfl, hfirst, hmore⟩ := h.exists_cons
  refine List.forall_mem_cons.mpr ⟨hdigit first hfirst, fun c hc => ?_⟩
  rcases hmore c hc with hc | rfl
  · exact hdigit c hc
  · decide

/-- A blank is plain. -/
theorem isPlain_of_isBlank {c : Char} (h : isBlank c = true) : IsPlain c := by
  simp only [isBlank, Bool.or_eq_true, beq_iff_eq] at h
  rcases h with (rfl | rfl) | rfl
  all_goals exact ⟨by decide, by decide, by decide⟩

/-- The characters of operators are plain. -/
theorem isPlain_of_mem_operator (o : Operator) : ∀ c ∈ o.spelling.toList, IsPlain c := by
  have hplain : ∀ c ∈ ['=', '+', '-', '*', '/', '!', '<', '>'], IsPlain c := by
    intro c hc
    simp only [List.mem_cons, List.not_mem_nil, or_false] at hc
    rcases hc with rfl | rfl | rfl | rfl | rfl | rfl | rfl | rfl
    all_goals exact ⟨by decide, by decide, by decide⟩
  have hsigns : o.spelling.toList.all ['=', '+', '-', '*', '/', '!', '<', '>'].contains = true := by
    cases o <;> rfl
  intro c hc
  exact hplain c (List.contains_iff_mem.mp (List.all_eq_true.mp hsigns c hc))

/-- The three ways in which highlighting meets a token: as a word, as a numeral, or as something
that is neither, is cut as it is read, and is not marked. -/
inductive Shape (terminal : Terminal) : Prop where
  | word (isWord : IsWord terminal.lexeme) (not_number : terminal.kind ≠ .number)
      (extended : ∀ c, terminal.extendedBy c = c.isAlphanum)
      (reserved : (Keyword.ofSpelling? (String.ofList terminal.lexeme)).isSome =
        terminal.kind.isKeyword)
  | numeral (isNumeral : IsNumeral terminal.lexeme) (number : terminal.kind = .number)
  | other (not_number : terminal.kind ≠ .number) (not_keyword : terminal.kind.isKeyword = false)
      (first : ∃ c cs, terminal.lexeme = c :: cs ∧ isWordCharacter c = false)
      (marks : ∀ rest, keywordMarks (terminal.lexeme ++ rest) =
        List.replicate terminal.lexeme.length false ++ keywordMarks rest)

/-- Every token but the end of the input has one of the shapes. -/
theorem shape {terminal : Terminal} (h : terminal.WellFormed)
    (hend : terminal.kind ≠ .endOfInput) : Shape terminal := by
  obtain ⟨kind, text⟩ := terminal
  cases kind with
  | endOfInput => exact absurd rfl hend
  | lineEnd =>
    obtain rfl : text = "\n" := h
    have hplain : ∀ c ∈ ['\n'], IsPlain c :=
      List.forall_mem_singleton.mpr ⟨by decide, by decide, by decide⟩
    exact .other (by simp) rfl ⟨'\n', [], rfl, by decide⟩ (keywordMarks_plain hplain)
  | number => exact .numeral h rfl
  | name =>
    refine .word h.1 (by simp) (fun _ => rfl) ?_
    have hname : Keyword.ofSpelling? text = none := h.2
    show (Keyword.ofSpelling? (String.ofList text.toList)).isSome = false
    rw [String.ofList_toList, hname]
    rfl
  | text =>
    have hbody : ∀ c ∈ text.toList, c ≠ '"' := fun c hc => ne_of_class (h c hc) (by decide)
    exact .other (by simp) rfl ⟨'"', _, rfl, by decide⟩ (keywordMarks_quoted hbody)
  | keyword k =>
    obtain rfl : text = k.spelling := h
    refine .word k.isWord_spelling (by simp) (fun _ => rfl) ?_
    show (Keyword.ofSpelling? (String.ofList k.spelling.toList)).isSome = true
    rw [String.ofList_toList, Keyword.ofSpelling?_eq_some_iff.mpr rfl]
    rfl
  | operator o =>
    obtain rfl : text = o.spelling := h
    have hplain := isPlain_of_mem_operator o
    obtain ⟨c, cs, hspelling⟩ : ∃ c cs, o.spelling.toList = c :: cs := by
      cases o <;> exact ⟨_, _, rfl⟩
    refine .other (by simp) rfl ⟨c, cs, hspelling, ?_⟩ (keywordMarks_plain hplain)
    exact (hplain c (hspelling ▸ List.mem_cons_self)).not_word

/-- What is passed over begins with no character of words. -/
theorem isWordCharacter_of_isSkipped {skipped : List Char} (h : IsSkipped skipped) :
    ∀ c, skipped.head? = some c → isWordCharacter c = false := by
  intro c hc
  obtain ⟨cs, rfl⟩ := List.head?_eq_some_iff.mp hc
  by_cases hblank : isBlank c = true
  · exact (isPlain_of_isBlank hblank).not_word
  · obtain rfl := h.comment c (by simp [hblank])
    decide

/-- What is passed over is not marked. -/
theorem keywordMarks_skipped {skipped : List Char} (h : IsSkipped skipped) :
    keywordMarks skipped = List.replicate skipped.length false := by
  induction skipped with
  | nil => decide +kernel
  | cons c cs ih =>
    by_cases hblank : isBlank c = true
    · have hrest : IsSkipped cs := by
        refine ⟨fun hmem => h.not_lineFeed (List.mem_cons_of_mem _ hmem), fun d hd => ?_⟩
        exact h.comment d (by simpa [hblank] using hd)
      have hplain : ∀ d ∈ [c], IsPlain d :=
        List.forall_mem_singleton.mpr (isPlain_of_isBlank hblank)
      have hmarks := keywordMarks_plain hplain cs
      rw [ih hrest] at hmarks
      exact hmarks
    · obtain rfl := h.comment c (by simp [hblank])
      exact keywordMarks_comment cs

/-! ## Tokens in front of a text -/

/-- If the text begins with a character of words, it is a letter or a digit. -/
def StartsWell (rest : List Char) : Prop :=
  ∀ c, rest.head? = some c → isWordCharacter c = true → c.isAlphanum = true

/-- A token starts well. -/
theorem Shape.startsWell {terminal : Terminal} (h : Shape terminal) (rest : List Char) :
    StartsWell (terminal.lexeme ++ rest) := by
  intro c hc hword
  cases h with
  | word isWord =>
    generalize terminal.lexeme = lexeme at isWord hc
    cases isWord with
    | intro hfirst _ =>
      obtain rfl := Option.some.inj hc
      exact Text.isAlphanum_of_isAlpha hfirst
  | numeral isNumeral =>
    obtain ⟨first, more, hlexeme, hfirst, -⟩ := isNumeral.exists_cons
    rw [hlexeme] at hc
    obtain rfl := Option.some.inj hc
    exact Text.isAlphanum_of_isDigit hfirst
  | other _ _ first =>
    obtain ⟨first, more, hlexeme, hfirst⟩ := first
    rw [hlexeme] at hc
    obtain rfl := Option.some.inj hc
    rw [hfirst] at hword
    cases hword

/-- Behind a word that nothing extends stands no character of words. -/
theorem not_word_of_endsBefore {terminal : Terminal} {rest : List Char}
    (hextended : ∀ c, terminal.extendedBy c = c.isAlphanum) (hends : terminal.EndsBefore rest)
    (hrest : StartsWell rest) : ∀ c, rest.head? = some c → isWordCharacter c = false := by
  intro c hc
  rw [Bool.eq_false_iff]
  intro hword
  have halphanum := hrest c hc hword
  rw [← hextended, hends c hc] at halphanum
  cases halphanum

/-- A token that is no number is marked if it is a reserved word. -/
theorem Shape.keywordMarks_append {terminal : Terminal} {rest : List Char} (h : Shape terminal)
    (hnumber : terminal.kind ≠ .number) (hends : terminal.EndsBefore rest)
    (hrest : StartsWell rest) :
    keywordMarks (terminal.lexeme ++ rest) =
      List.replicate terminal.lexeme.length terminal.kind.isKeyword ++ keywordMarks rest := by
  cases h with
  | word isWord _ extended reserved =>
    have hne : terminal.lexeme ≠ [] := by
      generalize terminal.lexeme = lexeme at isWord
      cases isWord
      simp
    rw [keywordMarks_word hne (isWordCharacter_of_isWord isWord)
      (not_word_of_endsBefore extended hends hrest), reserved]
  | numeral _ number => exact absurd number hnumber
  | other _ not_keyword _ marks => rw [marks, not_keyword]

/-- A numeral is not marked, nor is a word directly behind it. -/
theorem keywordMarks_numeral {numeral word rest : List Char} (h : IsNumeral numeral)
    (hword : ∀ c ∈ word, isWordCharacter c = true)
    (hrest : ∀ c, rest.head? = some c → isWordCharacter c = false) :
    keywordMarks (numeral ++ (word ++ rest)) =
      List.replicate numeral.length false ++
        (List.replicate word.length false ++ keywordMarks rest) := by
  have hall : ∀ c ∈ numeral ++ word, isWordCharacter c = true :=
    List.forall_mem_append.mpr ⟨isWordCharacter_of_isNumeral h, hword⟩
  obtain ⟨first, more, hnumeral, hfirst, -⟩ := h.exists_cons
  have hne : numeral ++ word ≠ [] := by simp [hnumeral]
  have hreserved : Keyword.ofSpelling? (String.ofList (numeral ++ word)) = none := by
    rw [hnumeral]
    exact Keyword.ofSpelling?_of_isDigit hfirst (more ++ word)
  rw [← List.append_assoc, keywordMarks_word hne hall hrest, hreserved, Option.isSome_none,
    List.length_append, ← List.replicate_append_replicate, List.append_assoc]

end Viewer.SourceText

end BasicCompiler
