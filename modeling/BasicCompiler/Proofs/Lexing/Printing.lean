import BasicCompiler.Proofs.Lexing.Reading
import BasicCompiler.Text.Alphanumeric

/-!
# Reading what was printed

A well-formed terminal is read back from its characters if the character behind it does not extend
it. Read `scan_lexeme_append` first; `exists_source` follows: every sequence of well-formed
terminals is the reading of some source. `reads_spaced_iff` says which sequences are read back from
their own characters.
-/

namespace BasicCompiler

namespace Terminal

/-- The characters of the terminal in a source. -/
def lexeme (terminal : Terminal) : List Char :=
  match terminal.kind with
  | .text => '"' :: terminal.text.toList ++ ['"']
  | _ => terminal.text.toList

/-- Directly behind the terminal, the character would be read together with it. -/
def extendedBy (terminal : Terminal) (c : Char) : Bool :=
  match terminal.kind with
  | .name | .keyword _ => c.isAlphanum
  | .number => c.isDigit || c == '.'
  | .operator o => (o == .assign || o == .less || o == .greater) && c == '='
  | _ => false

/-- The text does not begin with a character that extends the terminal. -/
def EndsBefore (terminal : Terminal) (rest : List Char) : Prop :=
  ∀ c, rest.head? = some c → terminal.extendedBy c = false

end Terminal

/-! ## Runs of characters of one class -/

/-- A run of a class ends where something of another class stands. -/
theorem takeWhile_append_of_boundary {α : Type} {p : α → Bool} {run rest : List α}
    (hrun : ∀ c ∈ run, p c = true) (hrest : ∀ c, rest.head? = some c → p c = false) :
    (run ++ rest).takeWhile p = run ∧ (run ++ rest).dropWhile p = rest := by
  rw [List.takeWhile_append_of_pos hrun, List.dropWhile_append_of_pos hrun]
  cases rest with
  | nil => simp
  | cons c rest =>
    have stop : ¬ p c = true := by simp [hrest c rfl]
    rw [List.takeWhile_cons_of_neg stop, List.dropWhile_cons_of_neg stop]
    exact ⟨List.append_nil run, rfl⟩

/-- Whether a run ends is decided by the first thing behind it. -/
theorem boundary_cons {α : Type} {p : α → Bool} {first : α} (h : p first = false)
    (rest : List α) : ∀ c, (first :: rest).head? = some c → p c = false := by
  intro c hc
  cases hc
  exact h

/-- Characters of which one belongs to a class and the other does not are different. -/
theorem ne_of_class {p : Char → Bool} {c d : Char} (hc : p c = true) (hd : p d = false) :
    c ≠ d := by
  intro hsame
  rw [hsame, hd] at hc
  cases hc

/-- A letter is no digit. -/
theorem isDigit_of_isAlpha {c : Char} (h : c.isAlpha = true) : c.isDigit = false := by
  have letter := Text.toNat_of_isAlpha h
  rw [Bool.eq_false_iff]
  intro hdigit
  have digit := Text.toNat_of_isDigit hdigit
  omega

namespace Lexeme

/-- A digit begins a number. -/
theorem read_of_isDigit {c : Char} (h : c.isDigit = true) (cs : List Char) :
    read c cs = readNumber c cs := by
  have hline : c ≠ '\n' := ne_of_class h rfl
  have hquote : c ≠ '"' := ne_of_class h rfl
  rw [read, if_neg hline, if_neg hquote, if_pos h]

/-- A letter begins a word. -/
theorem read_of_isAlpha {c : Char} (h : c.isAlpha = true) (cs : List Char) :
    read c cs = readWord c cs := by
  have hline : c ≠ '\n' := ne_of_class h rfl
  have hquote : c ≠ '"' := ne_of_class h rfl
  rw [read, if_neg hline, if_neg hquote, isDigit_of_isAlpha h, if_neg Bool.false_ne_true, if_pos h]

/-- A quoted text is read up to its closing quote. -/
theorem readText_append {body : List Char} (h : ∀ c ∈ body, isTextCharacter c = true)
    (rest : List Char) :
    readText (body ++ '"' :: rest) =
      ⟨'"' :: body ++ ['"'], rest, .ok (.text, String.ofList body)⟩ := by
  have closing : ∀ c, ('"' :: rest).head? = some c → isTextCharacter c = false :=
    boundary_cons rfl _
  obtain ⟨htake, hdrop⟩ := takeWhile_append_of_boundary h closing
  rw [readText, htake, hdrop]
  rfl

/-- A word is read up to the first character that is neither a letter nor a digit. -/
theorem readWord_append {first : Char} {more rest : List Char}
    (h : ∀ c ∈ more, c.isAlphanum = true)
    (hrest : ∀ c, rest.head? = some c → c.isAlphanum = false) :
    readWord first (more ++ rest) =
      accept (.ofWord (String.ofList (first :: more))) (first :: more) rest := by
  obtain ⟨htake, hdrop⟩ := takeWhile_append_of_boundary h hrest
  rw [readWord, htake, hdrop]

/-- A number without a point is read up to the first character that is neither a digit nor a
point. -/
theorem readNumber_whole {first : Char} {more rest : List Char}
    (h : ∀ c ∈ more, c.isDigit = true)
    (hrest : ∀ c, rest.head? = some c → c.isDigit = false ∧ c ≠ '.') :
    readNumber first (more ++ rest) = accept .number (first :: more) rest := by
  obtain ⟨htake, hdrop⟩ := takeWhile_append_of_boundary h fun c hc => (hrest c hc).1
  rw [readNumber, htake, hdrop]
  split
  · next behind => exact absurd rfl (hrest '.' rfl).2
  · rfl

/-- A number with a point is read up to the first character behind it that is neither a digit nor
a point. -/
theorem readNumber_decimal {first : Char} {more fraction rest : List Char}
    (h : ∀ c ∈ more, c.isDigit = true) (hfraction : IsDigits fraction)
    (hrest : ∀ c, rest.head? = some c → c.isDigit = false ∧ c ≠ '.') :
    readNumber first (more ++ '.' :: (fraction ++ rest)) =
      accept .number (first :: more ++ '.' :: fraction) rest := by
  have point : ∀ c, ('.' :: (fraction ++ rest)).head? = some c → c.isDigit = false :=
    boundary_cons rfl _
  obtain ⟨htake, hdrop⟩ := takeWhile_append_of_boundary h point
  obtain ⟨htake', hdrop'⟩ := takeWhile_append_of_boundary hfraction.isDigit
    fun c hc => (hrest c hc).1
  rw [readNumber, htake, hdrop]
  simp only [htake', hdrop', if_neg hfraction.ne_nil]
  split
  · next more' => exact absurd rfl (hrest '.' rfl).2
  · rfl

/-- An operator that an equals sign would extend is read alone in front of anything else. -/
theorem readExtensible_single {first : Char} {single double : Operator} {rest : List Char}
    (h : rest.head? ≠ some '=') :
    readExtensible first single double rest = accept (.operator single) [first] rest := by
  unfold readExtensible
  split
  · exact absurd rfl h
  · rfl

/-- The first character of a lexeme begins neither a blank nor a comment, and reading there gives
back the lexeme. -/
def ReadsBack (terminal : Terminal) (rest : List Char) : Prop :=
  ∃ c cs, terminal.lexeme = c :: cs ∧ isBlank c = false ∧ c ≠ '#' ∧
    read c (cs ++ rest) = ⟨c :: cs, rest, .ok (terminal.kind, terminal.text)⟩

/-- Operators are read back, unless an equals sign extends them. -/
theorem readsBack_operator (o : Operator) {rest : List Char}
    (h : (Terminal.operator o).EndsBefore rest) : ReadsBack (.operator o) rest := by
  cases o with
  | assign | less | greater =>
    have stop : rest.head? ≠ some '=' := fun hhead => absurd (h '=' hhead) (by decide)
    exact ⟨_, [], rfl, rfl, by decide, readExtensible_single stop⟩
  | plus | minus | times | divide | equal | notEqual | lessEqual | greaterEqual =>
    exact ⟨_, _, rfl, rfl, by decide, rfl⟩

/-- A letter or a digit begins neither a blank nor a comment. -/
theorem not_trivia_of_isAlphanum {c : Char} (h : c.isAlphanum = true) :
    isBlank c = false ∧ c ≠ '#' := by
  constructor
  · rw [Bool.eq_false_iff]
    intro hblank
    simp only [isBlank, Bool.or_eq_true, beq_iff_eq] at hblank
    rcases hblank with (hblank | hblank) | hblank
    · exact ne_of_class h rfl hblank
    · exact ne_of_class h rfl hblank
    · exact ne_of_class h rfl hblank
  · exact ne_of_class h rfl

/-- Words are read back, with the kind that they have as words. -/
theorem readsBack_word {terminal : Terminal} {rest : List Char} (h : IsWord terminal.text.toList)
    (hkind : terminal.kind = .ofWord terminal.text)
    (hlexeme : terminal.lexeme = terminal.text.toList)
    (hrest : ∀ c, rest.head? = some c → c.isAlphanum = false) : ReadsBack terminal rest := by
  generalize htext : terminal.text.toList = text at h
  obtain ⟨hfirst, hmore⟩ := h
  next first more =>
  obtain ⟨hblank, hcomment⟩ := not_trivia_of_isAlphanum (Text.isAlphanum_of_isAlpha hfirst)
  refine ⟨first, more, hlexeme.trans htext, hblank, hcomment, ?_⟩
  rw [read_of_isAlpha hfirst, readWord_append hmore hrest, hkind, ← htext, accept,
    String.ofList_toList]

/-- Digits begin with a digit, in front of which nothing is skipped. -/
theorem exists_cons_of_isDigits {digits : List Char} (h : IsDigits digits) :
    ∃ c cs, digits = c :: cs ∧ c.isDigit = true ∧ (∀ d ∈ cs, d.isDigit = true) ∧
      isBlank c = false ∧ c ≠ '#' := by
  obtain ⟨hne, hdigits⟩ := h
  cases digits with
  | nil => exact absurd rfl hne
  | cons c cs =>
    have hc := hdigits c List.mem_cons_self
    obtain ⟨hblank, hcomment⟩ := not_trivia_of_isAlphanum (Text.isAlphanum_of_isDigit hc)
    exact ⟨c, cs, rfl, hc, fun d hd => hdigits d (List.mem_cons_of_mem _ hd), hblank, hcomment⟩

/-- Numbers are read back. -/
theorem readsBack_number {digits : String} {rest : List Char} (h : IsNumeral digits.toList)
    (hrest : ∀ c, rest.head? = some c → c.isDigit = false ∧ c ≠ '.') :
    ReadsBack (.number digits) rest := by
  generalize htext : digits.toList = text at h
  have back : digits = String.ofList text := by rw [← htext, String.ofList_toList]
  cases h with
  | whole h =>
    obtain ⟨c, cs, rfl, hc, hcs, hblank, hcomment⟩ := exists_cons_of_isDigits h
    refine ⟨c, cs, htext, hblank, hcomment, ?_⟩
    rw [read_of_isDigit hc, readNumber_whole hcs hrest, accept, ← back]
    rfl
  | decimal h hfraction =>
    next fraction =>
    obtain ⟨c, cs, rfl, hc, hcs, hblank, hcomment⟩ := exists_cons_of_isDigits h
    refine ⟨c, cs ++ '.' :: fraction, htext, hblank, hcomment, ?_⟩
    rw [List.append_assoc, List.cons_append, read_of_isDigit hc,
      readNumber_decimal hcs hfraction hrest, accept, ← List.cons_append, ← back]
    rfl

/-- Every well-formed terminal but the end of the input is read back where nothing extends it. -/
theorem readsBack {terminal : Terminal} {rest : List Char} (h : terminal.WellFormed)
    (hend : terminal.kind ≠ .endOfInput) (hrest : terminal.EndsBefore rest) :
    ReadsBack terminal rest := by
  obtain ⟨kind, text⟩ := terminal
  cases kind with
  | endOfInput => exact absurd rfl hend
  | lineEnd =>
    obtain rfl : text = "\n" := h
    exact ⟨'\n', [], rfl, rfl, by decide, rfl⟩
  | number =>
    refine readsBack_number h fun c hc => ?_
    have := hrest c hc
    simpa [Terminal.extendedBy] using this
  | name =>
    refine readsBack_word h.1 ?_ rfl hrest
    have hword : Keyword.ofSpelling? text = none := h.2
    simp only [Kind.ofWord, hword]
  | text =>
    refine ⟨'"', text.toList ++ ['"'], rfl, rfl, by decide, ?_⟩
    rw [List.append_assoc]
    show readText _ = _
    rw [List.singleton_append, readText_append h, String.ofList_toList]
    rfl
  | keyword k =>
    obtain rfl : text = k.spelling := h
    refine readsBack_word ?_ ?_ rfl hrest
    · cases k <;> exact .intro rfl (List.all_eq_true.mp rfl)
    · simp only [Kind.ofWord, Keyword.ofSpelling?_eq_some_iff.mpr rfl]
  | operator o =>
    obtain rfl : text = o.spelling := h
    exact readsBack_operator o hrest

end Lexeme

/-- A numeral begins with a digit and goes on with digits and at most one point. -/
theorem IsNumeral.exists_cons {cs : List Char} (h : IsNumeral cs) :
    ∃ first more, cs = first :: more ∧ first.isDigit = true ∧
      ∀ c ∈ more, c.isDigit = true ∨ c = '.' := by
  cases h with
  | whole hwhole =>
    obtain ⟨first, more, rfl, hfirst, hmore, -⟩ := Lexeme.exists_cons_of_isDigits hwhole
    exact ⟨first, more, rfl, hfirst, fun c hc => .inl (hmore c hc)⟩
  | @decimal digits fraction hwhole hfraction =>
    obtain ⟨first, more, rfl, hfirst, hmore, -⟩ := Lexeme.exists_cons_of_isDigits hwhole
    refine ⟨first, more ++ '.' :: fraction, rfl, hfirst, ?_⟩
    refine List.forall_mem_append.mpr ⟨fun c hc => .inl (hmore c hc), ?_⟩
    exact List.forall_mem_cons.mpr ⟨.inr rfl, fun c hc => .inl (hfraction.isDigit c hc)⟩

/-! ## Texts -/

/-- Nothing is skipped in front of a character that is neither a blank nor a comment. -/
theorem behindTrivia_cons {c : Char} (hblank : isBlank c = false) (hcomment : c ≠ '#')
    (cs : List Char) : behindTrivia (c :: cs) = c :: cs := by
  unfold behindTrivia
  rw [List.dropWhile_cons_of_neg (by simp [hblank])]
  split
  · next h => exact absurd (List.cons.inj h).1 hcomment
  · rfl

/-- A space in front of a text is skipped. -/
@[simp] theorem scan_space (cs : List Char) : scan (' ' :: cs) = scan cs := by
  have skip : behindTrivia (' ' :: cs) = behindTrivia cs := rfl
  cases text : behindTrivia cs with
  | nil => rw [scan_of_eq_nil text, scan_of_eq_nil (skip.trans text)]
  | cons c more => rw [scan_of_eq_cons text, scan_of_eq_cons (skip.trans text)]

/-- The characters of a terminal are read as the terminal where nothing extends it. -/
theorem scan_lexeme_append {terminal : Terminal} {rest : List Char} (h : terminal.WellFormed)
    (hend : terminal.kind ≠ .endOfInput) (hrest : terminal.EndsBefore rest) :
    scan (terminal.lexeme ++ rest) = .ok terminal :: scan rest := by
  obtain ⟨c, cs, hlexeme, hblank, hcomment, hread⟩ := Lexeme.readsBack h hend hrest
  rw [hlexeme, List.cons_append, scan_of_eq_cons (behindTrivia_cons hblank hcomment _), hread]
  rfl

/-- The characters of some terminals, with a space behind each. -/
def printed (terminals : List Terminal) : List Char :=
  terminals.flatMap fun terminal => terminal.lexeme ++ [' ']

/-- A space extends no terminal. -/
theorem endsBefore_space (terminal : Terminal) (rest : List Char) :
    terminal.EndsBefore (' ' :: rest) := by
  intro c hc
  cases hc
  obtain ⟨kind, text⟩ := terminal
  cases kind <;> simp +decide [Terminal.extendedBy]

/-- Reading undoes printing. -/
theorem scan_printed {terminals : List Terminal} (h : ∀ t ∈ terminals, t.WellFormed)
    (hend : ∀ t ∈ terminals, t.kind ≠ .endOfInput) :
    scan (printed terminals) = terminals.map .ok := by
  induction terminals with
  | nil => exact scan_of_eq_nil rfl
  | cons terminal terminals ih =>
    have first := scan_lexeme_append (h terminal List.mem_cons_self)
      (hend terminal List.mem_cons_self) (endsBefore_space terminal (printed terminals))
    have others := ih (fun t ht => h t (List.mem_cons_of_mem _ ht))
      fun t ht => hend t (List.mem_cons_of_mem _ ht)
    calc scan (printed (terminal :: terminals))
        = scan (terminal.lexeme ++ ' ' :: printed terminals) := by
          simp [printed]
      _ = .ok terminal :: scan (' ' :: printed terminals) := first
      _ = (terminal :: terminals).map .ok := by rw [scan_space, others, List.map_cons]

/-- Every sequence of well-formed terminals is read from some source. -/
theorem exists_source {terminals : List Terminal} (h : ∀ t ∈ terminals, t.WellFormed)
    (hend : ∀ t ∈ terminals, t.kind ≠ .endOfInput) :
    ∃ source tokens, (Cursor.ofSource source).Reads tokens ∧
      tokens.map Token.terminal = terminals ++ [.endOfInput] := by
  refine ⟨String.ofList (printed terminals), exists_reads_iff_scan.mpr ?_⟩
  show scan (String.ofList (printed terminals)).toList = _
  rw [String.toList_ofList]
  exact scan_printed h hend

/-! ## A space between neighbours -/

/-- The characters of some terminals, with a single space between neighbours. -/
def spaced (terminals : List Terminal) : List Char :=
  [' '].intercalate (terminals.map Terminal.lexeme)

/-- Reading undoes printing also where nothing stands behind the last terminal. -/
theorem scan_spaced {terminals : List Terminal} (h : ∀ t ∈ terminals, t.WellFormed)
    (hend : ∀ t ∈ terminals, t.kind ≠ .endOfInput) :
    scan (spaced terminals) = terminals.map .ok := by
  induction terminals with
  | nil => exact scan_of_eq_nil rfl
  | cons terminal terminals ih =>
    have hfirst := h terminal List.mem_cons_self
    have hkind := hend terminal List.mem_cons_self
    have others := ih (fun t ht => h t (List.mem_cons_of_mem _ ht))
      fun t ht => hend t (List.mem_cons_of_mem _ ht)
    cases terminals with
    | nil =>
      have ends : terminal.EndsBefore [] := by simp [Terminal.EndsBefore]
      calc scan (spaced [terminal])
          = scan (terminal.lexeme ++ []) := by simp [spaced]
        _ = .ok terminal :: scan [] := scan_lexeme_append hfirst hkind ends
        _ = [terminal].map .ok := by rw [scan_of_eq_nil rfl, List.map_singleton]
    | cons next more =>
      calc scan (spaced (terminal :: next :: more))
          = scan (terminal.lexeme ++ ' ' :: spaced (next :: more)) := by
            simp [spaced, List.intercalate_cons_cons]
        _ = .ok terminal :: scan (' ' :: spaced (next :: more)) :=
            scan_lexeme_append hfirst hkind (endsBefore_space terminal _)
        _ = (terminal :: next :: more).map .ok := by rw [scan_space, others, ← List.map_cons]

/-- What is read without a fault is well-formed and not the end of the input. -/
theorem sound_of_mem_scan {cs : List Char} {terminal : Terminal} (h : .ok terminal ∈ scan cs) :
    terminal.WellFormed ∧ terminal.kind ≠ .endOfInput := by
  fun_induction scan cs with
  | case1 => cases h
  | case2 cs c more text ih =>
    rcases List.mem_cons.mp h with hfirst | hothers
    · cases reading : (Lexeme.read c more).reading with
      | error fault =>
        rw [reading] at hfirst
        cases hfirst
      | ok accepted =>
        rw [reading] at hfirst
        cases hfirst
        exact Lexeme.isSound_read c more _ _ reading
    · exact ih hothers

/-- Reading undoes printing. The characters of some terminals, with a single space between
neighbours, are read without a fault as these terminals and then the end of the input exactly if
the text of each terminal belongs to its kind and none of them is the end of the input. -/
theorem reads_spaced_iff (terminals : List Terminal) :
    (∃ tokens, (Cursor.ofSource (String.ofList (spaced terminals))).Reads tokens ∧
        tokens.map Token.terminal = terminals ++ [.endOfInput]) ↔
      ∀ t ∈ terminals, t.WellFormed ∧ t.kind ≠ .endOfInput := by
  have htext : (Cursor.ofSource (String.ofList (spaced terminals))).rest = spaced terminals :=
    String.toList_ofList
  rw [exists_reads_iff_scan, htext]
  constructor
  · intro hscan t ht
    have hmem : .ok t ∈ scan (spaced terminals) := by
      rw [hscan]
      exact List.mem_map_of_mem ht
    exact sound_of_mem_scan hmem
  · intro h
    exact scan_spaced (fun t ht => (h t ht).1) fun t ht => (h t ht).2

end BasicCompiler
