import BasicCompiler.Text.Lines
import BasicCompiler.Proofs.Decoding.Spelling

/-!
# Reading the lines of the C text

`Clause.read` tells from a single line of the C text what the line says. It looks at the letters
and digits that the line begins with and at the character behind them: that character decides, so
a name is never taken for a word of C, however it is spelled. The lemmas below read back the lines
of each kind of statement.
-/

namespace BasicCompiler

/-! ## Lines -/

/-- A text without line ends in it is one line. -/
theorem Text.linesOf_append {line : List Char} (hfeed : '\n' ∉ line) (hreturn : '\r' ∉ line)
    (rest : List Char) : linesOf (line ++ '\n' :: rest) = line :: linesOf rest := by
  induction line with
  | nil => rfl
  | cons c line ih =>
    rw [List.mem_cons, not_or] at hfeed hreturn
    rw [List.cons_append, linesOf]
    · rw [ih hfeed.2 hreturn.2]
    · intro h
      exact hfeed.1 h.symm
    · intro more h
      exact absurd h.symm hreturn.1

/-- No line ends in a line. -/
def OneLine (line : String) : Prop :=
  '\n' ∉ line.toList ∧ '\r' ∉ line.toList

/-- Whether a text is one line can be seen from its characters. -/
instance (line : String) : Decidable (OneLine line) :=
  inferInstanceAs (Decidable (_ ∧ _))

/-- Two texts without line ends make one. -/
theorem OneLine.append {first second : String} (h : OneLine first) (h' : OneLine second) :
    OneLine (first ++ second) := by
  constructor
  · rw [String.toList_append, List.mem_append, not_or]
    exact ⟨h.1, h'.1⟩
  · rw [String.toList_append, List.mem_append, not_or]
    exact ⟨h.2, h'.2⟩

/-- What can stand in a quoted text has no line ends. -/
theorem oneLine_of_isText {line : String}
    (h : line.toList.all Lexeme.isTextCharacter = true) : OneLine line := by
  have htext := List.all_eq_true.mp h
  constructor
  · intro hmem
    cases htext _ hmem
  · intro hmem
    cases htext _ hmem

/-- A name has no line ends. -/
theorem oneLine_name {word : String} (h : (Terminal.name word).WellFormed) : OneLine word :=
  oneLine_of_isText (all_isTextCharacter_of_isWord h.1)

/-- The lines of a text are those that it was put together from. -/
theorem Text.lines_unlines {lines : List String} (h : ∀ line ∈ lines, OneLine line) :
    Text.lines (unlines lines) = lines.map String.toList := by
  induction lines with
  | nil => rfl
  | cons line lines ih =>
    obtain ⟨hfeed, hreturn⟩ := h line List.mem_cons_self
    have hothers := ih fun other hother => h other (List.mem_cons_of_mem _ hother)
    have hchars : (unlines (line :: lines)).toList =
        line.toList ++ '\n' :: (unlines lines).toList := by
      simp [unlines_cons, String.toList_append]
    rw [Text.lines, hchars, Text.linesOf_append hfeed hreturn]
    exact congrArg _ hothers

/-! ## Clauses -/

/-- What a line of the C text says. -/
inductive Clause where
  | printText (text : String)
  | printValue (value : List Terminal)
  | opening (guard : Guard) (condition : List Terminal)
  | closing
  | label (name : String)
  | jump (name : String)
  | assignment (name : String) (value : List Terminal)
  | input (name : String)
  | other
deriving DecidableEq, Repr

namespace Clause

/-- The terminals in a piece of C text; what is no terminal is passed over. -/
def terminalsIn (cs : List Char) : List Terminal :=
  (scan cs).filterMap Except.toOption

/-- The name at the beginning of a piece of C text. -/
def nameIn (cs : List Char) : String :=
  String.ofList (cs.takeWhile Char.isAlphanum)

/-- What stands between the word and the value where a value is printed. -/
def valueStart : List Char :=
  ['(', '"', '%', '.', '2', 'f', '\\', 'n', '"', ',', ' ', '(', 'f', 'l', 'o', 'a', 't', ')', '(']

/-- What stands between the word and the name where a variable is read. -/
def targetStart : List Char :=
  ['(', '0', ' ', '=', '=', ' ', 's', 'c', 'a', 'n', 'f', '(', '"', '%', 'f', '"', ',', ' ', '&']

/-- What a line says that begins with the word, by what is behind the word. -/
def readBehind (word : String) (behind : List Char) : Clause :=
  match behind with
  | ':' :: _ => label word
  | ' ' :: '=' :: value => assignment word (terminalsIn value)
  | ' ' :: target => if word = "goto" then jump (nameIn target) else other
  | '}' :: _ => closing
  | '(' :: inner =>
    if word = "printf" then
      -- no text holds a percent sign, so only the format of a value has one there
      match (inner.drop 1).dropWhile Lexeme.isTextCharacter with
      | '%' :: _ => printValue (terminalsIn (behind.drop valueStart.length))
      | _ => printText (String.ofList ((inner.drop 1).takeWhile Lexeme.isTextCharacter))
    else if word = "while" then opening .loop (terminalsIn inner)
    else if word = "if" then
      -- no condition holds a quote, and the test of what was read does
      if inner.all Lexeme.isTextCharacter then opening .branch (terminalsIn inner)
      else input (nameIn (behind.drop targetStart.length))
    else other
  | _ => other

/-- What a line says. -/
def read (line : List Char) : Clause :=
  readBehind (String.ofList (line.takeWhile Char.isAlphanum)) (line.dropWhile Char.isAlphanum)

/-- A line is read by the word it begins with and by what is behind the word. -/
theorem read_append {word behind : List Char} (hword : ∀ c ∈ word, c.isAlphanum = true)
    (hbehind : ∀ c, behind.head? = some c → c.isAlphanum = false) :
    read (word ++ behind) = readBehind (String.ofList word) behind := by
  obtain ⟨htake, hdrop⟩ := takeWhile_append_of_boundary hword hbehind
  rw [read, htake, hdrop]

/-- The terminals of a spelled piece of C text are read where it ends in front of signs that are no
terminals. -/
theorem terminalsIn_append {code : String} {terminals : List Terminal} (h : Spells code terminals)
    {rest : List Char} (hrest : Seam rest) (hnone : terminalsIn rest = []) :
    terminalsIn (code.toList ++ rest) = terminals := by
  have hread : (terminals.map Except.ok).filterMap
      (Except.toOption : Except LexicalFault Terminal → Option Terminal) = terminals := by
    rw [List.filterMap_map]
    exact List.filterMap_some
  have hbehind : (scan rest).filterMap Except.toOption = [] := hnone
  rw [terminalsIn, h.scan_append rest hrest, List.filterMap_append, hread, hbehind,
    List.append_nil]

variable {word : String}

/-- The characters of a name. -/
theorem isAlphanum_of_name (h : (Terminal.name word).WellFormed) :
    ∀ c ∈ word.toList, c.isAlphanum = true :=
  isAlphanum_of_isWord h.1

/-- A name is read where a character follows that belongs to no name. -/
theorem nameIn_append (h : (Terminal.name word).WellFormed) {rest : List Char}
    (hrest : ∀ c, rest.head? = some c → c.isAlphanum = false) :
    nameIn (word.toList ++ rest) = word := by
  rw [nameIn, (takeWhile_append_of_boundary (isAlphanum_of_name h) hrest).1,
    String.ofList_toList]

/-- The line of a label. -/
theorem read_label (h : (Terminal.name word).WellFormed) :
    read (word ++ ":").toList = label word := by
  have hbehind : ∀ c, ":".toList.head? = some c → c.isAlphanum = false := boundary_cons rfl _
  rw [String.toList_append, read_append (isAlphanum_of_name h) hbehind, String.ofList_toList]
  rfl

/-- A line of a word and a name, of which no name begins with an equals sign. -/
theorem read_word_name {first : List Char} (hfirst : ∀ c ∈ first, c.isAlphanum = true)
    (h : (Terminal.name word).WellFormed) :
    read (first ++ ' ' :: (word.toList ++ [';'])) =
      if String.ofList first = "goto" then jump word else other := by
  have hname : ∀ value, word.toList ++ [';'] ≠ '=' :: value := by
    intro value hvalue
    have hword : IsWord word.toList := h.1
    generalize word.toList = letters at hvalue hword
    cases hword with
    | intro hletter _ =>
      rw [(List.cons.inj hvalue).1] at hletter
      cases hletter
  rw [read_append hfirst (by simp), readBehind, nameIn_append h (by simp)]
  simpa using hname

/-- The line of a jump. -/
theorem read_jump (h : (Terminal.name word).WellFormed) :
    read ("goto " ++ word ++ ";").toList = jump word := by
  have hchars : ("goto " ++ word ++ ";").toList =
      "goto".toList ++ ' ' :: (word.toList ++ [';']) := by
    simp [String.toList_append]
  rw [hchars, read_word_name (List.all_eq_true.mp rfl) h, if_pos (by decide)]

/-- The line of a declaration. -/
theorem read_declaration (h : (Terminal.name word).WellFormed) :
    read ("float " ++ word ++ ";").toList = other := by
  have hchars : ("float " ++ word ++ ";").toList =
      "float".toList ++ ' ' :: (word.toList ++ [';']) := by
    simp [String.toList_append]
  rw [hchars, read_word_name (List.all_eq_true.mp rfl) h, if_neg (by decide)]

/-- The line of an assignment. -/
theorem read_assignment {value : String} {terminals : List Terminal}
    (h : (Terminal.name word).WellFormed) (hvalue : Spells value terminals) :
    read (word ++ " = " ++ value ++ ";").toList = assignment word terminals := by
  have hchars : (word ++ " = " ++ value ++ ";").toList =
      word.toList ++ ' ' :: '=' :: ' ' :: (value.toList ++ [';']) := by
    simp [String.toList_append]
  have hterminals : terminalsIn (' ' :: (value.toList ++ [';'])) = terminals := by
    rw [terminalsIn, scan_space]
    exact terminalsIn_append hvalue (seam_cons rfl (by decide) (by decide) _) (by decide +kernel)
  rw [hchars, read_append (isAlphanum_of_name h) (by simp), String.ofList_toList, readBehind,
    hterminals]

/-- The line that opens a block. -/
theorem read_opening {condition : String} {terminals : List Terminal} (guard : Guard)
    (hcondition : Spells condition terminals) :
    read (guard.code ++ "(" ++ condition ++ ")\x7b").toList = opening guard terminals := by
  have hchars : (guard.code ++ "(" ++ condition ++ ")\x7b").toList =
      guard.code.toList ++ '(' :: (condition.toList ++ [')', '\x7b']) := by
    simp [String.toList_append]
  have hterminals : terminalsIn (condition.toList ++ [')', '\x7b']) = terminals :=
    terminalsIn_append hcondition (seam_cons rfl (by decide) (by decide) _) (by decide +kernel)
  have htext : (condition.toList ++ [')', '\x7b']).all Lexeme.isTextCharacter = true := by
    rw [List.all_append, hcondition.isText]
    rfl
  cases guard with
  | branch =>
    rw [hchars, read_append (List.all_eq_true.mp rfl) (by simp), String.ofList_toList, readBehind,
      if_neg (by decide), if_neg (by decide), if_pos (by decide), if_pos htext, hterminals]
  | loop =>
    rw [hchars, read_append (List.all_eq_true.mp rfl) (by simp), String.ofList_toList, readBehind,
      if_neg (by decide), if_pos (by decide), hterminals]

/-- The line that prints a text: what a text cannot hold stands behind it. -/
theorem read_printText {text : String} (h : (Terminal.quoted text).WellFormed) :
    read ("printf(\"" ++ text ++ "\\n\");").toList = printText text := by
  have hchars : ("printf(\"" ++ text ++ "\\n\");").toList =
      "printf".toList ++ '(' :: '"' :: (text.toList ++ '\\' :: "n\");".toList) := by
    simp [String.toList_append]
  have hbehind : ∀ c, ('\\' :: "n\");".toList).head? = some c →
      Lexeme.isTextCharacter c = false := boundary_cons rfl _
  have htext : ∀ c ∈ text.toList, Lexeme.isTextCharacter c = true := h
  obtain ⟨htake, hdrop⟩ := takeWhile_append_of_boundary htext hbehind
  rw [hchars, read_append (List.all_eq_true.mp rfl) (by simp), String.ofList_toList, readBehind,
    if_pos rfl, List.drop_one, List.tail_cons, htake, hdrop, String.ofList_toList]
  rfl

/-- The line that prints a value: its format begins with a sign that no text can hold. -/
theorem read_printValue {value : String} {terminals : List Terminal}
    (hvalue : Spells value terminals) :
    read ("printf(\"%.2f\\n\", (float)(" ++ value ++ "));").toList = printValue terminals := by
  have hstart : "printf(\"%.2f\\n\", (float)(".toList = "printf".toList ++ valueStart := by decide
  have hterminals : terminalsIn (value.toList ++ "));".toList) = terminals :=
    terminalsIn_append hvalue (seam_cons rfl (by decide) (by decide) _) (by decide +kernel)
  have hdrop : (valueStart ++ (value.toList ++ "));".toList)).drop valueStart.length =
      value.toList ++ "));".toList := List.drop_left
  have hbehind : ∀ c, (valueStart ++ (value.toList ++ "));".toList)).head? = some c →
      c.isAlphanum = false := boundary_cons rfl _
  rw [String.toList_append, String.toList_append, hstart, List.append_assoc, List.append_assoc,
    read_append (List.all_eq_true.mp rfl) hbehind, String.ofList_toList]
  show printValue (terminalsIn ((valueStart ++ _).drop valueStart.length)) = _
  rw [hdrop, hterminals]

/-- The line that reads a variable: no condition holds a quote. -/
theorem read_input (h : (Terminal.name word).WellFormed) :
    read ("if(0 == scanf(\"%f\", &" ++ word ++ ")) \x7b").toList = input word := by
  have hstart : "if(0 == scanf(\"%f\", &".toList = "if".toList ++ targetStart := by decide
  have hdrop : (targetStart ++ (word.toList ++ ")) \x7b".toList)).drop targetStart.length =
      word.toList ++ ")) \x7b".toList := List.drop_left
  have hname : nameIn (word.toList ++ ")) \x7b".toList) = word :=
    nameIn_append h (boundary_cons rfl _)
  have hbehind : ∀ c, (targetStart ++ (word.toList ++ ")) \x7b".toList)).head? = some c →
      c.isAlphanum = false := boundary_cons rfl _
  rw [String.toList_append, String.toList_append, hstart, List.append_assoc, List.append_assoc,
    read_append (List.all_eq_true.mp rfl) hbehind, String.ofList_toList]
  show input (nameIn ((targetStart ++ _).drop targetStart.length)) = _
  rw [hdrop, hname]

end Clause

end BasicCompiler
