import BasicCompiler.Proofs.Lexing.Extent
import BasicCompiler.Viewer.OutputText
import BasicCompiler.Viewer.SourceText

/-!
# Scanning a line

Highlighting as a loop over the places of a line: a cursor, a word that is being collected in front
of it, and the spans behind it. The loop fails where it would read outside of the line, and
`Scanner.Completes` says that it does not, and that it ends. Read `highlighting_keeps_text` first:
for source text and for generated C the loop ends with the spans of the highlighter, of which none
is empty and which are together the line.
-/

namespace BasicCompiler.Viewer

/-! ## Scans -/

/-- The rules of a scan: the characters that are collected into words, the look of a word in front
of the character behind it, if there is one, and for a character of no word the place where the span
that it begins ends, and its look. -/
structure Scanner where
  isWord : Char → Bool
  wordStyle : List Char → Option Char → Style
  finish : List Char → Nat → Char → Nat
  style : Char → Style

/-- A scan under way. -/
structure Scan where
  position : Nat
  word : List Char
  spans : List Span

/-- The characters between two places of a line. There are none unless the places are in order and
in the line. -/
def slice? (chars : List Char) (start finish : Nat) : Option (List Char) :=
  if start ≤ finish ∧ finish ≤ chars.length then some ((chars.drop start).take (finish - start))
  else none

namespace Scanner

/-- The spans with the collected word, if there is one, in front of the character `next`. -/
def flushed (scanner : Scanner) (scan : Scan) (next : Option Char) : List Span :=
  if scan.word = [] then scan.spans
  else scan.spans ++ [⟨scan.word, scanner.wordStyle scan.word next⟩]

/-- One turn of the loop: the character at the cursor is collected, or ends the word in front of it
and begins a span of its own. -/
def step (scanner : Scanner) (chars : List Char) (scan : Scan) : Option Scan := do
  let c ← chars[scan.position]?
  if scanner.isWord c then
    return ⟨scan.position + 1, scan.word ++ [c], scan.spans⟩
  else
    let finish := scanner.finish chars scan.position c
    let text ← slice? chars scan.position finish
    return ⟨finish, [], scanner.flushed scan (some c) ++ [⟨text, scanner.style c⟩]⟩

/-- A number of turns. -/
def run (scanner : Scanner) (chars : List Char) : Nat → Scan → Option Scan
  | 0, scan => some scan
  | count + 1, scan => scanner.step chars scan >>= scanner.run chars count

/-- Every span that the scanner can cut from the line has its beginning in front of its end, and its
end in the line. The loop reaches the end of the line in no more turns than there are characters,
and leaves the spans. -/
structure Completes (scanner : Scanner) (chars : List Char) (spans : List Span) : Prop where
  bounds : ∀ i c, chars[i]? = some c → scanner.isWord c = false →
    i < scanner.finish chars i c ∧ scanner.finish chars i c ≤ chars.length
  ends : ∃ count scan, count ≤ chars.length ∧ scanner.run chars count ⟨0, [], []⟩ = some scan ∧
    scan.position = chars.length ∧ scanner.flushed scan none = spans

/-- The scanner cuts words and other spans as the highlighter does, which is given the character in
front and those behind it. -/
structure Agrees (scanner : Scanner) (highlighter : Highlighter) : Prop where
  word : ∀ c cs, scanner.isWord c = true → highlighter c cs =
    (scanner.wordStyle (c :: cs.takeWhile scanner.isWord) (cs.dropWhile scanner.isWord).head?,
      (cs.takeWhile scanner.isWord).length)
  style : ∀ c cs, scanner.isWord c = false → (highlighter c cs).1 = scanner.style c
  finish : ∀ front c cs, scanner.isWord c = false →
    scanner.finish (front ++ c :: cs) front.length c =
      front.length + 1 + min (highlighter c cs).2 cs.length

end Scanner

/-- What stands between two parts of a line is cut out. -/
theorem slice?_append (front text behind : List Char) :
    slice? (front ++ (text ++ behind)) front.length (front.length + text.length) = some text := by
  simp [slice?]

/-- A line is cut at its first character as the highlighter says. -/
theorem Highlighter.spans_cons (highlighter : Highlighter) (c : Char) (cs : List Char) :
    highlighter.spans (c :: cs) =
      ⟨c :: cs.take (highlighter c cs).2, (highlighter c cs).1⟩ ::
        highlighter.spans (cs.drop (highlighter c cs).2) := by
  rw [Highlighter.spans]

namespace Scanner.Agrees

variable {scanner : Scanner} {highlighter : Highlighter}

/-- A word that ends in front of the rest is one span. -/
theorem spans_word (h : scanner.Agrees highlighter) {word rest : List Char} (hne : word ≠ [])
    (hword : ∀ c ∈ word, scanner.isWord c = true)
    (hrest : ∀ c, rest.head? = some c → scanner.isWord c = false) :
    highlighter.spans (word ++ rest) =
      ⟨word, scanner.wordStyle word rest.head?⟩ :: highlighter.spans rest := by
  obtain ⟨first, more, rfl⟩ := List.exists_cons_of_ne_nil hne
  obtain ⟨htake, hdrop⟩ :=
    takeWhile_append_of_boundary (fun c hc => hword c (List.mem_cons_of_mem _ hc)) hrest
  rw [List.cons_append, Highlighter.spans_cons, h.word first _ (hword first List.mem_cons_self),
    htake, hdrop, List.take_left, List.drop_left]

/-- What has been collected when the word ends is written as the highlighter would write it. -/
theorem flushed_eq (h : scanner.Agrees highlighter) (scan : Scan) {rest : List Char}
    (hword : ∀ c ∈ scan.word, scanner.isWord c = true)
    (hrest : ∀ c, rest.head? = some c → scanner.isWord c = false) :
    scanner.flushed scan rest.head? ++ highlighter.spans rest =
      scan.spans ++ highlighter.spans (scan.word ++ rest) := by
  rw [flushed]
  split
  · next hempty => rw [hempty, List.nil_append]
  · next hne => rw [h.spans_word hne hword hrest, List.append_assoc, List.singleton_append]

/-- The bounds of a span at a character of no word. -/
theorem bounds (h : scanner.Agrees highlighter) {chars : List Char} {i : Nat} {c : Char}
    (hc : chars[i]? = some c) (hword : scanner.isWord c = false) :
    i < scanner.finish chars i c ∧ scanner.finish chars i c ≤ chars.length := by
  obtain ⟨hi, rfl⟩ := List.getElem?_eq_some_iff.mp hc
  have hfinish := h.finish (chars.take i) chars[i] (chars.drop (i + 1)) hword
  rw [List.getElem_cons_drop, List.take_append_drop, List.length_take,
    Nat.min_eq_left (Nat.le_of_lt hi), List.length_drop] at hfinish
  omega

/-- A character of no word ends what has been collected and takes its span with it. -/
theorem step_eq (h : scanner.Agrees highlighter) (front : List Char) {c : Char} (cs : List Char)
    (hc : scanner.isWord c = false) (word : List Char) (spans : List Span) :
    scanner.step (front ++ c :: cs) ⟨front.length, word, spans⟩ =
      some ⟨(front ++ c :: cs.take (highlighter c cs).2).length, [],
        scanner.flushed ⟨front.length, word, spans⟩ (some c) ++
          [⟨c :: cs.take (highlighter c cs).2, (highlighter c cs).1⟩]⟩ := by
  have hlength : scanner.finish (front ++ c :: cs) front.length c =
      front.length + (c :: cs.take (highlighter c cs).2).length := by
    rw [h.finish front c cs hc, List.length_cons, List.length_take]
    omega
  have hslice : slice? (front ++ c :: cs) front.length
      (scanner.finish (front ++ c :: cs) front.length c) =
        some (c :: cs.take (highlighter c cs).2) := by
    have hparts := slice?_append front (c :: cs.take (highlighter c cs).2)
      (cs.drop (highlighter c cs).2)
    rwa [List.cons_append, List.take_append_drop, ← hlength] at hparts
  simp only [step, List.getElem?_append_right (Nat.le_refl _), Nat.sub_self,
    List.getElem?_cons_zero, Option.bind_eq_bind, Option.bind_some, hc, Bool.false_eq_true,
    if_false, hslice]
  rw [hlength, h.style c cs hc, List.length_append]
  rfl

/-- From any place on, the loop ends and writes what the highlighter makes of the collected word and
the rest of the line. -/
theorem exists_run (h : scanner.Agrees highlighter) (front rest word : List Char)
    (spans : List Span) (hword : ∀ c ∈ word, scanner.isWord c = true) :
    ∃ count scan, count ≤ rest.length ∧
      scanner.run (front ++ rest) count ⟨front.length, word, spans⟩ = some scan ∧
      scan.position = (front ++ rest).length ∧
      scanner.flushed scan none = spans ++ highlighter.spans (word ++ rest) := by
  -- a turn can take many characters, so the induction is on their number
  induction hlength : rest.length using Nat.strongRecOn generalizing front rest word spans with
  | _ length ih =>
  subst hlength
  cases rest with
  | nil =>
    refine ⟨0, _, Nat.le_refl _, rfl, by rw [List.append_nil], ?_⟩
    have hend : ∀ c, ([] : List Char).head? = some c → scanner.isWord c = false := by simp
    have hflushed := h.flushed_eq ⟨front.length, word, spans⟩ hword hend
    rwa [Highlighter.spans, List.append_nil] at hflushed
  | cons c cs =>
    by_cases hc : scanner.isWord c = true
    · have hstep : scanner.step (front ++ c :: cs) ⟨front.length, word, spans⟩ =
          some ⟨(front ++ [c]).length, word ++ [c], spans⟩ := by
        simp [step, hc]
      have hword' : ∀ d ∈ word ++ [c], scanner.isWord d = true := by
        simpa [or_imp, forall_and, hc] using hword
      obtain ⟨count, scan, hcount, hrun, hposition, hspans⟩ :=
        ih cs.length (Nat.lt_succ_self _) (front ++ [c]) cs (word ++ [c]) spans hword' rfl
      rw [List.append_assoc, List.singleton_append] at hrun hposition hspans
      refine ⟨count + 1, scan, Nat.succ_le_succ hcount, ?_, hposition, hspans⟩
      rw [run, hstep]
      exact hrun
    · rw [Bool.not_eq_true] at hc
      have hparts : front ++ c :: cs = front ++ c :: cs.take (highlighter c cs).2 ++
          cs.drop (highlighter c cs).2 := by
        simp
      have hshort : (cs.drop (highlighter c cs).2).length ≤ cs.length := by simp
      obtain ⟨count, scan, hcount, hrun, hposition, hspans⟩ :=
        ih _ (Nat.lt_succ_of_le hshort) (front ++ c :: cs.take (highlighter c cs).2)
          (cs.drop (highlighter c cs).2) []
          (scanner.flushed ⟨front.length, word, spans⟩ (some c) ++
            [⟨c :: cs.take (highlighter c cs).2, (highlighter c cs).1⟩]) (by simp) rfl
      rw [← hparts] at hrun hposition
      refine ⟨count + 1, scan, Nat.succ_le_succ (Nat.le_trans hcount hshort), ?_, hposition, ?_⟩
      · rw [run, h.step_eq front cs hc]
        exact hrun
      · have hflushed := h.flushed_eq ⟨front.length, word, spans⟩ hword (boundary_cons hc cs)
        rw [hspans, ← hflushed, Highlighter.spans_cons, List.append_assoc]
        rfl

/-- The loop does what the highlighter does. -/
theorem completes (h : scanner.Agrees highlighter) (line : List Char) :
    scanner.Completes line (highlighter.spans line) :=
  ⟨fun _ _ => h.bounds, h.exists_run [] line [] [] (List.forall_mem_nil _)⟩

end Scanner.Agrees

/-! ## Quoted texts -/

/-- The place of the first quote from a place on, where some characters behind one are skipped with
it. Without a quote it is a place behind the last character, and can be one beyond the end. -/
def closingQuote (skips : Char → Nat) (chars : List Char) (i : Nat) : Nat :=
  if h : i < chars.length then
    if chars[i] = '"' then i else closingQuote skips chars (i + 1 + skips chars[i])
  else i
termination_by chars.length - i

section

variable (skips : Char → Nat) (front : List Char)

/-- At the end of the line there is no quote. -/
theorem closingQuote_of_le {line : List Char} {i : Nat} (h : line.length ≤ i) :
    closingQuote skips line i = i := by
  rw [closingQuote, dif_neg (Nat.not_lt_of_le h)]

/-- A quote is found where it stands. -/
theorem closingQuote_quote (cs : List Char) :
    closingQuote skips (front ++ '"' :: cs) front.length = front.length := by
  rw [closingQuote]
  simp

/-- Any other character is passed over. -/
theorem closingQuote_cons {c : Char} (h : c ≠ '"') (cs : List Char) :
    closingQuote skips (front ++ c :: cs) front.length =
      closingQuote skips (front ++ c :: cs) (front.length + 1 + skips c) := by
  rw [closingQuote]
  simp [h]

end

namespace SourceText

/-- The rules for source text: a comment ends with the line, a quoted text behind its closing quote
or, without one, with the line. -/
def scanner : Scanner where
  isWord := isWordCharacter
  wordStyle word _ := wordStyle word
  finish line i c :=
    if c = '#' then line.length
    else if c = '"' then
      let quote := closingQuote (fun _ => 0) line (i + 1)
      if quote < line.length then quote + 1 else quote
    else i + 1
  style c :=
    if c = '#' then Style.colored Palette.comment
    else if c = '"' then Style.colored Palette.quotation
    else Style.colored Palette.text

/-- Without characters to skip, the closing quote stands behind a run of other characters. -/
theorem closingQuote_eq (front cs : List Char) :
    closingQuote (fun _ => 0) (front ++ cs) front.length =
      front.length + (cs.takeWhile (· != '"')).length := by
  induction cs generalizing front with
  | nil => simp [closingQuote_of_le]
  | cons c cs ih =>
    by_cases hc : c = '"'
    · subst hc
      exact closingQuote_quote _ front cs
    · have hplace : (front ++ [c]).length = front.length + 1 := by simp
      have hrest := ih (front ++ [c])
      rw [hplace, List.append_assoc, List.singleton_append] at hrest
      have htake : (c :: cs).takeWhile (· != '"') = c :: cs.takeWhile (· != '"') :=
        List.takeWhile_cons_of_pos (bne_iff_ne.mpr hc)
      rw [closingQuote_cons _ _ hc, Nat.add_zero, hrest, htake, List.length_cons]
      omega

/-- The rules are those of the highlighter. -/
theorem agrees_scanner : scanner.Agrees highlighter where
  word c cs hword := by
    have hcomment : c ≠ '#' := ne_of_class hword (by decide)
    have hquote : c ≠ '"' := ne_of_class hword (by decide)
    have hword : isWordCharacter c = true := hword
    rw [highlighter, if_neg hcomment, if_neg hquote, if_pos hword]
    rfl
  style c cs hword := by
    have hword : isWordCharacter c = false := hword
    simp only [highlighter, scanner, hword, Bool.false_eq_true, if_false]
    repeat' split
    all_goals rfl
  finish front c cs hword := by
    have hword : isWordCharacter c = false := hword
    simp only [highlighter, scanner, hword, Bool.false_eq_true, if_false]
    split
    · simp [Nat.add_assoc, Nat.add_comm 1]
    split
    · have hquote := closingQuote_eq (front ++ [c]) cs
      rw [List.append_assoc, List.singleton_append, List.length_append] at hquote
      have hle := (List.takeWhile_sublist (· != '"') (l := cs)).length_le
      simp only [List.length_singleton] at hquote
      rw [hquote, List.length_append, List.length_cons]
      split <;> omega
    · simp

end SourceText

namespace OutputText

/-- The rules for generated C: a literal ends behind its closing quote, in which a backslash takes
the character behind it along, or with the line. -/
def scanner : Scanner where
  isWord := isWordCharacter
  wordStyle word next := wordStyle word (next = some '(')
  finish line i c :=
    if c = '"' then
      min (closingQuote (fun d => if d = '\\' then 1 else 0) line (i + 1) + 1) line.length
    else i + 1
  style c :=
    if c = '"' then Style.colored Palette.quotation
    else if isBracket c then Style.colored Palette.bracket
    else Style.colored Palette.text

/-- A literal ends where its length says, unless that is beyond the end of the line. -/
theorem closingQuote_eq (front cs : List Char) :
    min (closingQuote (fun d => if d = '\\' then 1 else 0) (front ++ cs) front.length + 1)
        (front ++ cs).length =
      front.length + min (literalLength cs) cs.length := by
  fun_induction literalLength cs generalizing front with
  | case1 => simp [closingQuote_of_le]
  | case2 rest =>
    rw [closingQuote_quote, List.length_append, List.length_cons]
    omega
  | case3 c rest ih =>
    have hplace : (front ++ ['\\', c]).length = front.length + 1 + 1 := by simp
    have hrest := ih (front ++ ['\\', c])
    rw [hplace, List.append_assoc, List.cons_append, List.singleton_append] at hrest
    rw [closingQuote_cons _ _ (by decide), if_pos rfl, hrest, List.length_cons, List.length_cons]
    omega
  | case4 c rest hquote hescape ih =>
    rw [closingQuote_cons _ _ hquote]
    by_cases hc : c = '\\'
    · -- a backslash at the end of the line takes a place along that is not there
      obtain rfl : rest = [] := by
        cases rest with
        | nil => rfl
        | cons d rest => exact (hescape d rest hc rfl).elim
      have hplace : (front ++ [c]).length ≤ front.length + 1 + 1 := by simp
      rw [if_pos hc, closingQuote_of_le _ hplace, List.length_append]
      simp [literalLength]
    · have hplace : (front ++ [c]).length = front.length + 1 := by simp
      have hrest := ih (front ++ [c])
      rw [hplace, List.append_assoc, List.singleton_append] at hrest
      rw [if_neg hc, Nat.add_zero, hrest, List.length_cons]
      omega

/-- The rules are those of the highlighter. -/
theorem agrees_scanner : scanner.Agrees highlighter where
  word c cs hword := by
    have hquote : c ≠ '"' := ne_of_class hword (by decide)
    have hword : isWordCharacter c = true := hword
    rw [highlighter, if_neg hquote, if_pos hword]
    rfl
  style c cs hword := by
    have hword : isWordCharacter c = false := hword
    simp only [highlighter, scanner, hword, Bool.false_eq_true, if_false]
    repeat' split
    all_goals rfl
  finish front c cs hword := by
    have hword : isWordCharacter c = false := hword
    simp only [highlighter, scanner, hword, Bool.false_eq_true, if_false]
    split
    · have hquote := closingQuote_eq (front ++ [c]) cs
      rwa [List.append_assoc, List.singleton_append, List.length_append] at hquote
    · split
      · simp
      · simp

end OutputText

/-! ## Both highlighters -/

/-- The spans are together the line, and none of them is empty. -/
structure Tiles (line : List Char) (spans : List Span) : Prop where
  text_eq : spans.flatMap Span.text = line
  text_ne_nil : ∀ span ∈ spans, span.text ≠ []

/-- Whatever a highlighter says, its spans tile the line. -/
theorem Highlighter.tiles_spans (highlighter : Highlighter) (line : List Char) :
    Tiles line (highlighter.spans line) :=
  ⟨highlighter.flatMap_text_spans line, highlighter.text_ne_nil line⟩

/-- The spans of a line of generated C tile it, also if it is a directive. -/
theorem OutputText.tiles_highlight (line : List Char) : Tiles line (OutputText.highlight line) := by
  unfold OutputText.highlight
  split
  · exact ⟨by simp, by simp⟩
  · exact OutputText.highlighter.tiles_spans line

/-- Highlighting does not alter a line, whether it is taken for source text or for generated C, and
it leaves no span empty. The loops that highlight it neither read outside of the line nor go on
forever: a directive is not scanned at all, and any other line in no more turns than it has
characters. -/
theorem highlighting_keeps_text (line : List Char) :
    Tiles line (SourceText.highlight line) ∧ Tiles line (OutputText.highlight line) ∧
      SourceText.scanner.Completes line (SourceText.highlight line) ∧
      (OutputText.highlight line = [⟨line, Style.colored Palette.keyword⟩] ∧
          line.head? = some '#' ∨
        OutputText.scanner.Completes line (OutputText.highlight line)) := by
  refine ⟨SourceText.highlighter.tiles_spans line, OutputText.tiles_highlight line,
    SourceText.agrees_scanner.completes line, ?_⟩
  unfold OutputText.highlight
  split
  · exact .inl ⟨rfl, rfl⟩
  · exact .inr (OutputText.agrees_scanner.completes line)

/-- A backslash behind an opening quote takes a place along that the line does not have, and the
literal ends with the line all the same. -/
example : closingQuote (fun d => if d = '\\' then 1 else 0) ['x', '"', '\\'] 2 = 4 ∧
    OutputText.scanner.finish ['x', '"', '\\'] 1 '"' = 3 := by
  decide +kernel

end BasicCompiler.Viewer
