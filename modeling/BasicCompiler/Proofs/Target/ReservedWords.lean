import BasicCompiler.Proofs.Generated.Concatenation
import BasicCompiler.Proofs.Generated.Declarations

/-!
# Names that C has taken

A variable or a label of the C text carries the name it has in the source. C reserves some words,
and the lines of the statements call two functions by name, so some names make a text that is no C
program. Read `avoidsReserved_iff` first: a C text is free of such names exactly if the source gives
no value to a variable and declares no label of such a name.
-/

namespace BasicCompiler

namespace C

/-- The words that are reserved in C. -/
def keywords : List String :=
  ["auto", "break", "case", "char", "const", "continue", "default", "do", "double", "else", "enum",
    "extern", "float", "for", "goto", "if", "inline", "int", "long", "register", "restrict",
    "return", "short", "signed", "sizeof", "static", "struct", "switch", "typedef", "union",
    "unsigned", "void", "volatile", "while", "_Alignas", "_Alignof", "_Atomic", "_Bool", "_Complex",
    "_Generic", "_Imaginary", "_Noreturn", "_Static_assert", "_Thread_local"]

/-- The functions that the lines of the statements call. -/
def calledFunctions : List String :=
  ["printf", "scanf"]

end C

/-- No line of the C text declares a variable that has the name of a reserved word or of a function
that is called, and none is a label that has the name of a reserved word. -/
def AvoidsReserved (code : String) : Prop :=
  (∀ word ∈ C.keywords ++ C.calledFunctions, Fragment.declaration word ∉ codeLines code) ∧
    ∀ word ∈ C.keywords, word ++ ":" ∉ codeLines code

instance (code : String) : Decidable (AvoidsReserved code) :=
  inferInstanceAs (Decidable (_ ∧ _))

/-! ## Lines that say nothing about statements -/

mutual

/-- Of the lines of a statement, only the one that drops a word of the input says nothing. -/
theorem Statement.eq_of_read_other (statement : Statement)
    (h : ∀ t ∈ statement.terminals, t.WellFormed) {line : String} (hline : line ∈ statement.lines)
    (hother : Clause.read line.toList = .other) : line = "scanf(\"%*s\");" := by
  have hclauses := statement.clauses_lines h
  have hmem : .other ∈ BasicCompiler.clauses statement.lines :=
    hother ▸ List.mem_map_of_mem hline
  cases statement with
  | guarded guard condition opening body blank =>
    rw [lines] at hline
    rcases List.mem_cons.mp hline with hopen | hline
    · have hread : Clause.read _ = .opening guard condition.terminals :=
        List.head_eq_of_cons_eq hclauses
      rw [← hopen, hother] at hread
      cases hread
    · rcases List.mem_append.mp hline with hline | hline
      · exact list_eq_of_read_other body (fun t ht => h t (by simp [terminals, ht])) hline hother
      · rw [List.mem_singleton.mp hline] at hother
        cases hother
  | input name blank =>
    have hname := h (.name name) (List.mem_cons_of_mem _ List.mem_cons_self)
    rw [lines] at hline
    rcases List.mem_cons.mp hline with rfl | hline
    · rw [Clause.read_input hname] at hother
      cases hother
    rcases List.mem_cons.mp hline with rfl | hline
    · rw [Clause.read_zero hname] at hother
      cases hother
    rcases List.mem_cons.mp hline with rfl | hline
    · rfl
    · rw [List.mem_singleton.mp hline] at hother
      cases hother
  | printText | printValue | label | jump | assignment =>
    rw [hclauses] at hmem
    cases List.mem_singleton.mp hmem

/-- Of the lines of statements in a row, only those that drop a word of the input say nothing. -/
theorem Statement.list_eq_of_read_other (statements : List Statement)
    (h : ∀ t ∈ listTerminals statements, t.WellFormed) {line : String}
    (hline : line ∈ listLines statements) (hother : Clause.read line.toList = .other) :
    line = "scanf(\"%*s\");" := by
  cases statements with
  | nil => cases hline
  | cons statement statements =>
    rcases List.mem_append.mp hline with hline | hline
    · exact statement.eq_of_read_other (fun t ht => h t (List.mem_append_left _ ht)) hline hother
    · exact list_eq_of_read_other statements (fun t ht => h t (List.mem_append_right _ ht)) hline
        hother

end

/-! ## Lines of labels -/

/-- Only the line of a label ends with a colon. -/
theorem notMem_of_getLast? {lines : List String} {name : String}
    (h : ∀ line ∈ lines, line.toList.getLast? ≠ some ':') : name ++ ":" ∉ lines := by
  intro hline
  refine h _ hline ?_
  rw [String.toList_append]
  exact List.getLast?_concat

mutual

/-- A statement has a line for a label if it declares the label. -/
theorem Statement.label_mem_lines_iff (statement : Statement) {name : String} :
    name ++ ":" ∈ statement.lines ↔ name ∈ labelNames statement.mentions := by
  cases statement with
  | printText text blank =>
    refine iff_of_false (notMem_of_getLast? ?_) ?_
    · simp [lines, List.getLast?_cons]
    · simp [mentions, labelNames]
  | printValue value blank =>
    refine iff_of_false (notMem_of_getLast? ?_) ?_
    · simp [lines, List.getLast?_cons]
    · simp [mentions, value.readsNames.labelNames_eq]
  | guarded guard condition opening body blank =>
    have hopen : name ++ ":" ∉ [guard.code ++ "(" ++ condition.code ++ ")\x7b"] :=
      notMem_of_getLast? (by simp [List.getLast?_cons])
    have hclose : name ++ ":" ∉ ["\x7d"] := notMem_of_getLast? (by decide)
    rw [lines, List.mem_cons, List.mem_append, list_label_mem_lines_iff body, mentions,
      labelNames_append, condition.readsNames.labelNames_eq]
    simp only [List.mem_singleton] at hopen hclose
    simp [hopen, hclose]
  | label word blank => simp [lines, mentions, labelNames]
  | jump word blank =>
    refine iff_of_false (notMem_of_getLast? ?_) ?_
    · simp [lines, List.getLast?_cons]
    · simp [mentions, labelNames]
  | assignment word value blank =>
    refine iff_of_false (notMem_of_getLast? ?_) ?_
    · simp [lines, List.getLast?_cons]
    · rw [mentions, labelNames_append, value.readsNames.labelNames_eq]
      simp [labelNames]
  | input word blank =>
    refine iff_of_false (notMem_of_getLast? ?_) ?_
    · simp [lines, List.getLast?_cons]
    · simp [mentions, labelNames]

/-- Statements in a row have a line for a label if they declare the label. -/
theorem Statement.list_label_mem_lines_iff (statements : List Statement) {name : String} :
    name ++ ":" ∈ listLines statements ↔ name ∈ labelNames (listMentions statements) := by
  cases statements with
  | nil => simp [listLines, listMentions, labelNames]
  | cons statement statements =>
    rw [listLines, List.mem_append, statement.label_mem_lines_iff,
      list_label_mem_lines_iff statements, listMentions, labelNames_append, List.mem_append]

end

/-! ## Which names are in the C text -/

namespace Program

variable {program : Program} {word : String}

/-- The lines of the C text are the preamble, the declarations, the lines of the statements, and
the epilogue. -/
theorem mem_codeLines_text (h : ∀ t ∈ program.terminals, t.WellFormed) {line : String} :
    line ∈ codeLines program.text ↔ line ∈ Fragment.preamble ∨
      line ∈ program.variableNames.map Fragment.declaration ∨ line ∈ program.bodyLines ∨
        line ∈ Fragment.epilogue := by
  have hheader : program.headerLines =
      Fragment.preamble ++ program.variableNames.map Fragment.declaration := rfl
  rw [codeLines_text h, hheader, List.mem_append, List.mem_append, List.mem_append, or_assoc,
    or_assoc]
  exact Iff.rfl

/-- A word that C has taken is declared in the C text if the program gives it a value. -/
theorem declaration_mem_codeLines_iff (h : ∀ t ∈ program.terminals, t.WellFormed)
    (hword : word ∈ C.keywords ++ C.calledFunctions) :
    Fragment.declaration word ∈ codeLines program.text ↔ word ∈ targets program.terminals := by
  have hlines : ∀ word ∈ C.keywords ++ C.calledFunctions,
      Fragment.declaration word ∉ Fragment.preamble ∧
        Fragment.declaration word ∉ Fragment.epilogue ∧
        Clause.read (Fragment.declaration word).toList = .other ∧
        Fragment.declaration word ≠ "scanf(\"%*s\");" := by
    decide +kernel
  obtain ⟨hpreamble, hepilogue, hother, hscanf⟩ := hlines word hword
  have hbody : Fragment.declaration word ∉ program.bodyLines := fun hline =>
    hscanf (Statement.list_eq_of_read_other program.statements (wellFormed_statements h) hline
      hother)
  have hnames : Fragment.declaration word ∈ program.variableNames.map Fragment.declaration ↔
      word ∈ assignedNames program.mentions := by
    rw [← program.firstSeen_variableNames.mem_iff]
    simp [Fragment.declaration_inj]
  rw [mem_codeLines_text h, program.targets_terminals, ← hnames]
  simp only [hpreamble, hbody, hepilogue, false_or, or_false]

/-- A label has its line in the C text if the program declares it. -/
theorem label_mem_codeLines_iff (h : ∀ t ∈ program.terminals, t.WellFormed) :
    word ++ ":" ∈ codeLines program.text ↔ word ∈ labels program.terminals := by
  have hpreamble : word ++ ":" ∉ Fragment.preamble := notMem_of_getLast? (by decide)
  have hepilogue : word ++ ":" ∉ Fragment.epilogue := notMem_of_getLast? (by decide)
  have hnames : word ++ ":" ∉ program.variableNames.map Fragment.declaration :=
    notMem_of_getLast? (by simp [Fragment.declaration, List.getLast?_cons])
  have hbody : word ++ ":" ∈ program.bodyLines ↔ word ∈ labelNames program.mentions :=
    Statement.list_label_mem_lines_iff program.statements
  rw [mem_codeLines_text h, program.labels_terminals, ← hbody]
  simp only [hpreamble, hnames, hepilogue, false_or, or_false]

end Program

/-- The C text of a source is free of the names that C has taken exactly if no LET or INPUT of the
source gives a value to a variable that has the name of a reserved word or of a function that is
called, and no LABEL has the name of a reserved word. -/
theorem avoidsReserved_iff {source code : String} (h : compile source = .ok code) :
    AvoidsReserved code ↔
      (∀ word ∈ targets (sourceTerminals source),
        word ∉ C.keywords ∧ word ∉ C.calledFunctions) ∧
      ∀ word ∈ labels (sourceTerminals source), word ∉ C.keywords := by
  obtain ⟨program, hterminals, hwell, -, rfl⟩ := exists_program_of_compile h
  rw [hterminals]
  constructor
  · intro havoids
    obtain ⟨hvariables, hlabels⟩ := havoids
    refine ⟨fun word hword => ?_, fun word hword hkeyword => ?_⟩
    · rw [← not_or, ← List.mem_append]
      intro htaken
      exact hvariables word htaken ((Program.declaration_mem_codeLines_iff hwell htaken).mpr hword)
    · exact hlabels word hkeyword ((Program.label_mem_codeLines_iff hwell).mpr hword)
  · intro hfree
    obtain ⟨hvariables, hlabels⟩ := hfree
    refine ⟨fun word htaken hline => ?_, fun word hkeyword hline => ?_⟩
    · have hword := (Program.declaration_mem_codeLines_iff hwell htaken).mp hline
      rcases List.mem_append.mp htaken with hkeyword | hfunction
      · exact (hvariables word hword).1 hkeyword
      · exact (hvariables word hword).2 hfunction
    · exact hlabels word ((Program.label_mem_codeLines_iff hwell).mp hline) hkeyword

/-- In a program whose names only begin like words that C has taken, no name is one of them. -/
theorem avoidsReserved_iff_longer_words :
    compile "LABEL forever\nLET integer = 1\nINPUT printf2\nGOTO forever\n" =
        .ok ("#include <stdio.h>\nint main(void)\x7b\nfloat integer;\nfloat printf2;\n" ++
          "forever:\ninteger = 1;\nif(0 == scanf(\"%f\", &printf2)) \x7b\nprintf2 = 0;\n" ++
          "scanf(\"%*s\");\n\x7d\ngoto forever;\nreturn 0;\n\x7d\n") ∧
      AvoidsReserved
        ("#include <stdio.h>\nint main(void)\x7b\nfloat integer;\nfloat printf2;\n" ++
          "forever:\ninteger = 1;\nif(0 == scanf(\"%f\", &printf2)) \x7b\nprintf2 = 0;\n" ++
          "scanf(\"%*s\");\n\x7d\ngoto forever;\nreturn 0;\n\x7d\n") := by
  have h : compile "LABEL forever\nLET integer = 1\nINPUT printf2\nGOTO forever\n" =
      .ok ("#include <stdio.h>\nint main(void)\x7b\nfloat integer;\nfloat printf2;\n" ++
        "forever:\ninteger = 1;\nif(0 == scanf(\"%f\", &printf2)) \x7b\nprintf2 = 0;\n" ++
        "scanf(\"%*s\");\n\x7d\ngoto forever;\nreturn 0;\n\x7d\n") := by
    decide +kernel
  exact ⟨h, (avoidsReserved_iff h).mpr (by decide +kernel)⟩

/-- A variable can have the name of a reserved word, and its declaration is then no declaration
in C. -/
theorem not_avoidsReserved_int :
    ∃ code, compile "LET int = 1\n" = .ok code ∧ "float int;" ∈ codeLines code ∧
      ¬ AvoidsReserved code := by
  refine ⟨"#include <stdio.h>\nint main(void)\x7b\nfloat int;\nint = 1;\nreturn 0;\n\x7d\n", ?_⟩
  decide +kernel

end BasicCompiler
