import BasicCompiler.Proofs.Decoding.Decoder
import BasicCompiler.Proofs.Grammar.Occurrences

/-!
# The parts of the C text

A C text consists of the preamble, a declaration for each variable, the lines of the statements,
and the epilogue. `declarationLines` and `statementLines` find the two inner parts in the text
itself, by the shape of its lines. Read `Program.declarationLines_text` and
`Program.statementLines_text` first: what they find in the C text of a program is what the program
was translated into.
-/

namespace BasicCompiler

/-- The terminals of a source; the last one is the end of the input. -/
def sourceTerminals (source : String) : List Terminal :=
  Clause.terminalsIn source.toList ++ [.endOfInput]

/-- Places aside: a source is compiled into a text if it holds the terminals of a program that
follows the rules for names, and the text is the C text of that program. -/
theorem compile_eq_ok_iff_scan {source code : String} :
    compile source = .ok code ↔ ∃ (terminals : List Terminal) (program : Program),
      scan source.toList = terminals.map .ok ∧
        terminals ++ [.endOfInput] = program.terminals ∧ program.Scoped ∧ code = program.text := by
  rw [compile_eq_ok_iff]
  constructor
  · intro h
    obtain ⟨tokens, program, hreads, hterminals, hscoped, hcode⟩ := h
    have hends := hterminals.trans program.terminals_eq
    exact ⟨_, program, exists_reads_iff_scan.mp ⟨tokens, hreads, hends⟩, program.terminals_eq.symm,
      hscoped, hcode⟩
  · intro h
    obtain ⟨terminals, program, hscan, hterminals, hscoped, hcode⟩ := h
    have hsource : scan (Cursor.ofSource source).rest = terminals.map .ok := hscan
    obtain ⟨tokens, hreads, hends⟩ := exists_reads_iff_scan.mpr hsource
    exact ⟨tokens, program, hreads, hends.trans hterminals, hscoped, hcode⟩

/-- The terminals of a source without faults. -/
theorem sourceTerminals_of_scan {source : String} {terminals : List Terminal}
    (h : scan source.toList = terminals.map .ok) :
    sourceTerminals source = terminals ++ [.endOfInput] := by
  have hall : Clause.terminalsIn source.toList = terminals := by
    rw [Clause.terminalsIn, h, List.filterMap_map]
    exact List.filterMap_some
  rw [sourceTerminals, hall]

/-- The terminals of a source without faults are well formed. -/
theorem wellFormed_of_scan {source : String} {terminals : List Terminal}
    (h : scan source.toList = terminals.map .ok) :
    ∀ t ∈ terminals ++ [.endOfInput], t.WellFormed := by
  have hsource : scan (Cursor.ofSource source).rest = terminals.map .ok := h
  obtain ⟨tokens, hreads, hterminals⟩ := exists_reads_iff_scan.mpr hsource
  intro t ht
  rw [← hterminals] at ht
  obtain ⟨token, htoken, rfl⟩ := List.mem_map.mp ht
  exact hreads.wellFormed token htoken

/-- A source that is compiled has a program with well-formed terminals, which are those of the
source. -/
theorem exists_program_of_compile {source code : String} (h : compile source = .ok code) :
    ∃ program : Program, sourceTerminals source = program.terminals ∧
      (∀ t ∈ program.terminals, t.WellFormed) ∧ program.Scoped ∧ code = program.text := by
  obtain ⟨terminals, program, hscan, hterminals, hscoped, hcode⟩ := compile_eq_ok_iff_scan.mp h
  refine ⟨program, ?_, ?_, hscoped, hcode⟩
  · rw [sourceTerminals_of_scan hscan, hterminals]
  · rw [← hterminals]
    exact wellFormed_of_scan hscan

/-! ## Finding the parts -/

/-- The lines of a C text. -/
def codeLines (code : String) : List String :=
  (Text.lines code).map String.ofList

/-- The line declares a variable. -/
def isDeclaration (line : String) : Bool :=
  line == Fragment.declaration (Clause.nameIn (line.toList.drop "float ".length))

/-- The lines between the two lines of the preamble and the two of the epilogue. -/
def innerLines (code : String) : List String :=
  ((codeLines code).drop 2).dropLast.dropLast

/-- The lines that declare variables. -/
def declarationLines (code : String) : List String :=
  (innerLines code).takeWhile isDeclaration

/-- The lines of the statements. -/
def statementLines (code : String) : List String :=
  (innerLines code).dropWhile isDeclaration

/-! ## What the lines of statements say -/

mutual

/-- What the C lines of a statement say. -/
def Statement.clauses : Statement → List Clause
  | .printText text _ => [.printText text]
  | .printValue value _ => [.printValue value.terminals]
  | .guarded guard condition _ body _ =>
    .opening guard condition.terminals :: (Statement.listClauses body ++ [.closing])
  | .label name _ => [.label name]
  | .jump name _ => [.jump name]
  | .assignment name value _ => [.assignment name value.terminals]
  | .input name _ => [.input name, .assignment name [.number "0"], .other, .closing]

/-- What the C lines of statements in a row say. -/
def Statement.listClauses : List Statement → List Clause
  | [] => []
  | statement :: statements => statement.clauses ++ Statement.listClauses statements

end

/-- The line that sets a variable to zero is an assignment. -/
theorem Clause.read_zero {word : String} (h : (Terminal.name word).WellFormed) :
    read (word ++ " = 0;").toList = assignment word [.number "0"] := by
  have hzero : ∀ t ∈ (Operand.number "0").terminals, t.WellFormed := by
    intro t ht
    rw [List.mem_singleton.mp ht]
    exact .whole ⟨by decide, List.all_eq_true.mp rfl⟩
  have hline : word ++ " = 0;" = word ++ " = " ++ (Operand.number "0").code ++ ";" := by
    rw [String.append_assoc, String.append_assoc]
    rfl
  rw [hline, read_assignment h (Operand.spells hzero)]
  rfl

mutual

/-- The lines of a statement say what its tree says. -/
theorem Statement.clauses_lines (statement : Statement)
    (h : ∀ t ∈ statement.terminals, t.WellFormed) :
    BasicCompiler.clauses statement.lines = statement.clauses := by
  cases statement with
  | printText text blank =>
    have htext := h (.quoted text) (List.mem_cons_of_mem _ List.mem_cons_self)
    exact congrArg (fun clause => [clause]) (Clause.read_printText htext)
  | printValue value blank =>
    have hvalue := Expression.spells fun t ht =>
      h t (List.mem_cons_of_mem _ (List.mem_append_left _ ht))
    exact congrArg (fun clause => [clause]) (Clause.read_printValue hvalue)
  | guarded guard condition opening body blank =>
    have hcondition := @Condition.spells condition fun t ht => h t (by simp [terminals, ht])
    have hbody := list_clauses_lines body fun t ht => h t (by simp [terminals, ht])
    rw [lines, BasicCompiler.clauses, List.map_cons, List.map_append,
      Clause.read_opening guard hcondition]
    show _ :: (BasicCompiler.clauses (listLines body) ++ _) = _
    rw [hbody]
    rfl
  | label name blank =>
    have hname := h (.name name) (List.mem_cons_of_mem _ List.mem_cons_self)
    exact congrArg (fun clause => [clause]) (Clause.read_label hname)
  | jump name blank =>
    have hname := h (.name name) (List.mem_cons_of_mem _ List.mem_cons_self)
    exact congrArg (fun clause => [clause]) (Clause.read_jump hname)
  | assignment name value blank =>
    have hname := h (.name name) (List.mem_cons_of_mem _ List.mem_cons_self)
    have hvalue := @Expression.spells value fun t ht => h t (by simp [terminals, ht])
    exact congrArg (fun clause => [clause]) (Clause.read_assignment hname hvalue)
  | input name blank =>
    have hname := h (.name name) (List.mem_cons_of_mem _ List.mem_cons_self)
    rw [lines, BasicCompiler.clauses, List.map_cons, List.map_cons, Clause.read_input hname,
      Clause.read_zero hname]
    rfl

/-- The lines of statements in a row say what their trees say. -/
theorem Statement.list_clauses_lines (statements : List Statement)
    (h : ∀ t ∈ listTerminals statements, t.WellFormed) :
    BasicCompiler.clauses (listLines statements) = listClauses statements := by
  cases statements with
  | nil => rfl
  | cons statement statements =>
    have hfirst := statement.clauses_lines fun t ht => h t (List.mem_append_left _ ht)
    have hothers := list_clauses_lines statements fun t ht => h t (List.mem_append_right _ ht)
    rw [listLines, BasicCompiler.clauses, List.map_append]
    exact congr (congrArg _ hfirst) hothers

end

/-! ## The parts of a program -/

/-- A declaration says nothing about statements. -/
theorem read_of_isDeclaration {line : String} (h : isDeclaration line = true) :
    Clause.read line.toList = .other := by
  have hline : line = Fragment.declaration (Clause.nameIn (line.toList.drop "float ".length)) :=
    beq_iff_eq.mp h
  generalize hname : Clause.nameIn (line.toList.drop "float ".length) = name at hline
  have hchars : line.toList = "float".toList ++ ' ' :: (name.toList ++ [';']) := by
    rw [hline]
    simp [Fragment.declaration, String.toList_append]
  have hbehind : ∀ value, name.toList ++ [';'] ≠ '=' :: value := by
    intro value hvalue
    cases hfirst : name.toList with
    | nil =>
      rw [hfirst] at hvalue
      cases hvalue
    | cons first more =>
      -- a name that begins with an equals sign would not be letters and digits
      have hmem : first ∈ name.toList := by simp [hfirst]
      rw [← hname, Clause.nameIn, String.toList_ofList] at hmem
      have hclass := List.all_eq_true.mp List.all_takeWhile first hmem
      rw [hfirst] at hvalue
      rw [(List.cons.inj hvalue).1] at hclass
      cases hclass
  rw [hchars, Clause.read_append (List.all_eq_true.mp rfl) (by simp), Clause.readBehind]
  · rfl
  · intro value hvalue
    exact hbehind value hvalue

/-- Names are declared by declarations. -/
theorem isDeclaration_declaration {name : String} (h : (Terminal.name name).WellFormed) :
    isDeclaration (Fragment.declaration name) = true := by
  have hchars : (Fragment.declaration name).toList =
      "float ".toList ++ (name.toList ++ [';']) := by
    simp [Fragment.declaration, String.toList_append]
  have hdrop : ("float ".toList ++ (name.toList ++ [';'])).drop "float ".length =
      name.toList ++ [';'] := List.drop_left
  rw [isDeclaration, hchars, hdrop, Clause.nameIn_append h (boundary_cons rfl _)]
  exact beq_self_eq_true _

/-- The lines of statements do not begin with one that says nothing. -/
theorem Statement.head?_listClauses_ne (statements : List Statement) :
    (listClauses statements).head? ≠ some .other := by
  cases statements with
  | nil => simp [listClauses]
  | cons statement statements => cases statement <;> simp [listClauses, clauses]

namespace Program

variable {program : Program}

/-- The statements of a program with well-formed terminals have well-formed terminals. -/
theorem wellFormed_statements (h : ∀ t ∈ program.terminals, t.WellFormed) :
    ∀ t ∈ Statement.listTerminals program.statements, t.WellFormed := by
  intro t ht
  exact h t (List.mem_append_left _ (List.mem_append_right _ ht))

/-- The lines of the C text are those of the translation. -/
theorem codeLines_text (h : ∀ t ∈ program.terminals, t.WellFormed) :
    codeLines program.text = program.headerLines ++ program.bodyLines ++ footerLines := by
  obtain ⟨squeezed, hbody⟩ :=
    Statement.list_mirrors program.statements (wellFormed_statements h)
  rw [codeLines, text, Text.lines_unlines (program.oneLine_lines h hbody), List.map_map]
  simp [Function.comp_def, String.ofList_toList]

/-- The inner lines of the C text are declarations and lines of statements. -/
theorem innerLines_text (h : ∀ t ∈ program.terminals, t.WellFormed) :
    innerLines program.text =
      program.variableNames.map Fragment.declaration ++ program.bodyLines := by
  have hfooter : ∀ lines : List String, (lines ++ footerLines).dropLast.dropLast = lines := by
    intro lines
    rw [footerLines, ← List.concat_append, List.dropLast_concat]
    simp
  rw [innerLines, codeLines_text h, headerLines, List.append_assoc, List.append_assoc]
  show ((program.variableNames.map Fragment.declaration) ++
    (program.bodyLines ++ footerLines)).dropLast.dropLast = _
  rw [← List.append_assoc, hfooter]

/-- In the C text of a program the declarations end where the statements begin. -/
theorem parts_text (h : ∀ t ∈ program.terminals, t.WellFormed) :
    declarationLines program.text = program.variableNames.map Fragment.declaration ∧
      statementLines program.text = program.bodyLines := by
  have hnames := program.wellFormed_variableNames h
  rw [declarationLines, statementLines, innerLines_text h]
  refine takeWhile_append_of_boundary (fun line hline => ?_) fun line hline => ?_
  · obtain ⟨name, hname, rfl⟩ := List.mem_map.mp hline
    exact isDeclaration_declaration (hnames name hname)
  · rw [Bool.eq_false_iff]
    intro hdeclaration
    have hclauses := Statement.list_clauses_lines program.statements (wellFormed_statements h)
    have hfirst := congrArg List.head? hclauses
    rw [clauses, List.head?_map] at hfirst
    refine Statement.head?_listClauses_ne program.statements ?_
    rw [← hfirst]
    exact (congrArg _ hline).trans (congrArg some (read_of_isDeclaration hdeclaration))

/-- The declarations found in the C text are those of the variables. -/
theorem declarationLines_text (h : ∀ t ∈ program.terminals, t.WellFormed) :
    declarationLines program.text = program.variableNames.map Fragment.declaration :=
  (parts_text h).1

/-- The lines of statements found in the C text are those of the translation. -/
theorem statementLines_text (h : ∀ t ∈ program.terminals, t.WellFormed) :
    statementLines program.text = program.bodyLines :=
  (parts_text h).2

end Program

end BasicCompiler
