import BasicCompiler.Proofs.Decoding.Lines
import BasicCompiler.Proofs.Language

/-!
# The C text tells its program

Nothing of a program is lost in the C text but its trivia: blanks, comments and blank lines.
`decode` reads the terminals of a program from the lines of its C text, with one line end behind
each statement. Read `Program.decode_lines` first: what is decoded from the C text of a program is
what is left of the program's terminals when its blank lines are dropped.
-/

namespace BasicCompiler

/-! ## Blank lines -/

/-- One line end in the place of line ends in a row. -/
def squeeze : List Terminal → List Terminal
  | [] => []
  | terminal :: terminals =>
    if terminal.kind = .lineEnd ∧ terminals.head?.map Terminal.kind = some .lineEnd then
      squeeze terminals
    else terminal :: squeeze terminals

/-- The terminals without blank lines: none in front, and one line end in the place of line ends in
a row. -/
def withoutBlankLines (terminals : List Terminal) : List Terminal :=
  squeeze (terminals.dropWhile fun terminal => terminal.kind = .lineEnd)

/-- The sequence does not begin with a line end. -/
def Begun (rest : List Terminal) : Prop :=
  ∀ terminal, rest.head? = some terminal → terminal.kind ≠ .lineEnd

/-- Terminals without a line end among them stay as they are. -/
theorem squeeze_append {terminals : List Terminal} (h : ∀ t ∈ terminals, t.kind ≠ .lineEnd)
    (rest : List Terminal) : squeeze (terminals ++ rest) = terminals ++ squeeze rest := by
  induction terminals with
  | nil => rfl
  | cons terminal terminals ih =>
    have hfirst := h terminal List.mem_cons_self
    have hothers := ih fun t ht => h t (List.mem_cons_of_mem _ ht)
    rw [List.cons_append, squeeze, if_neg (fun hboth => hfirst hboth.1), hothers]
    rfl

/-- Line ends in a row become one. -/
theorem squeeze_lineEnds {rest : List Terminal} (hrest : Begun rest) (blank : Nat) :
    squeeze (lineEnds blank ++ rest) = .lineEnd :: squeeze rest := by
  induction blank with
  | zero =>
    have hnot : ¬ rest.head?.map Terminal.kind = some .lineEnd := by
      intro hkind
      obtain ⟨terminal, hhead, hline⟩ := Option.map_eq_some_iff.mp hkind
      exact hrest terminal hhead hline
    show squeeze (.lineEnd :: rest) = _
    rw [squeeze, if_neg (fun hboth => hnot hboth.2)]
  | succ blank ih =>
    show squeeze (.lineEnd :: (lineEnds blank ++ rest)) = _
    rw [squeeze, if_pos ⟨rfl, rfl⟩]
    exact ih

/-! ## The decoder -/

/-- The terminals that lines with the given clauses stand for. The guards are those of the blocks
that are open, the innermost one first; a line that closes no block says nothing, and neither do
the three lines behind the first one of an INPUT statement. -/
def decode : List Guard → List Clause → List Terminal
  | _, [] => [.endOfInput]
  | guards, .printText text :: more =>
    .keyword .PRINT :: .quoted text :: .lineEnd :: decode guards more
  | guards, .printValue value :: more =>
    .keyword .PRINT :: (value ++ .lineEnd :: decode guards more)
  | guards, .opening guard condition :: more =>
    .keyword guard.leading :: (condition ++ .keyword guard.opening :: .lineEnd ::
      decode (guard :: guards) more)
  | guard :: guards, .closing :: more => .keyword guard.closing :: .lineEnd :: decode guards more
  | [], .closing :: more => decode [] more
  | guards, .label name :: more => .keyword .LABEL :: .name name :: .lineEnd :: decode guards more
  | guards, .jump name :: more => .keyword .GOTO :: .name name :: .lineEnd :: decode guards more
  | guards, .assignment name value :: more =>
    .keyword .LET :: .name name :: .operator .assign :: (value ++ .lineEnd :: decode guards more)
  | guards, .input name :: _ :: _ :: _ :: more =>
    .keyword .INPUT :: .name name :: .lineEnd :: decode guards more
  | guards, .input _ :: more => decode guards more
  | guards, .other :: more => decode guards more

/-- The clauses of some lines. -/
def clauses (lines : List String) : List Clause :=
  lines.map fun line => Clause.read line.toList

/-- The lines stand for the squeezed terminals, whatever stands behind them, and so do the
terminals when they are squeezed. -/
structure Mirrors (lines : List String) (terminals squeezed : List Terminal) : Prop where
  oneLine : ∀ line ∈ lines, OneLine line
  decode : ∀ guards more, decode guards (clauses lines ++ more) = squeezed ++ decode guards more
  squeeze : ∀ {rest}, Begun rest → squeeze (terminals ++ rest) = squeezed ++ squeeze rest

/-- A statement that is one line: the terminals in front of its line ends are those that its line
stands for. -/
theorem mirrors_of_line (line : String) (terminals : List Terminal) (hline : OneLine line)
    (hterminals : ∀ t ∈ terminals, t.kind ≠ .lineEnd)
    (hdecode : ∀ guards more, decode guards (Clause.read line.toList :: more) =
      terminals ++ .lineEnd :: decode guards more) (blank : Nat) :
    Mirrors [line] (terminals ++ lineEnds blank) (terminals ++ [.lineEnd]) := by
  refine ⟨?_, fun guards more => ?_, fun {rest} hrest => ?_⟩
  · intro other hother
    rw [List.mem_singleton.mp hother]
    exact hline
  · rw [List.append_assoc]
    exact hdecode guards more
  · rw [List.append_assoc, squeeze_append hterminals, squeeze_lineEnds hrest, List.append_assoc]
    rfl

/-- A PRINT statement with a text. -/
theorem mirrors_printText {text : String} (h : (Terminal.quoted text).WellFormed) (blank : Nat) :
    Mirrors (Statement.printText text blank).lines (Statement.printText text blank).terminals
      [.keyword .PRINT, .quoted text, .lineEnd] := by
  have htext : OneLine text := oneLine_of_isText (List.all_eq_true.mpr h)
  have hopen : OneLine "printf(\"" := by decide
  have hclose : OneLine "\\n\");" := by decide
  refine mirrors_of_line _ [.keyword .PRINT, .quoted text] ((hopen.append htext).append hclose)
    (by simp [Terminal.keyword, Terminal.quoted]) (fun guards more => ?_) blank
  rw [Clause.read_printText h, decode]
  rfl

/-- A PRINT statement with a value. -/
theorem mirrors_printValue {value : Expression} (h : Spells value.code value.terminals)
    (blank : Nat) :
    Mirrors (Statement.printValue value blank).lines (Statement.printValue value blank).terminals
      (.keyword .PRINT :: value.terminals ++ [.lineEnd]) := by
  have hvalue : OneLine value.code := oneLine_of_isText h.isText
  have hopen : OneLine "printf(\"%.2f\\n\", (float)(" := by decide
  have hclose : OneLine "));" := by decide
  refine mirrors_of_line _ (.keyword .PRINT :: value.terminals)
    ((hopen.append hvalue).append hclose)
    (List.forall_mem_cons.mpr ⟨Kind.noConfusion, h.not_lineEnd⟩) (fun guards more => ?_) blank
  rw [Clause.read_printValue h, decode]
  rfl

/-- A label. -/
theorem mirrors_label {name : String} (h : (Terminal.name name).WellFormed) (blank : Nat) :
    Mirrors (Statement.label name blank).lines (Statement.label name blank).terminals
      [.keyword .LABEL, .name name, .lineEnd] := by
  have hclose : OneLine ":" := by decide
  refine mirrors_of_line _ [.keyword .LABEL, .name name] ((oneLine_name h).append hclose)
    (by simp [Terminal.keyword, Terminal.name]) (fun guards more => ?_) blank
  rw [Clause.read_label h, decode]
  rfl

/-- A jump. -/
theorem mirrors_jump {name : String} (h : (Terminal.name name).WellFormed) (blank : Nat) :
    Mirrors (Statement.jump name blank).lines (Statement.jump name blank).terminals
      [.keyword .GOTO, .name name, .lineEnd] := by
  have hopen : OneLine "goto " := by decide
  have hclose : OneLine ";" := by decide
  refine mirrors_of_line _ [.keyword .GOTO, .name name]
    ((hopen.append (oneLine_name h)).append hclose)
    (by simp [Terminal.keyword, Terminal.name]) (fun guards more => ?_) blank
  rw [Clause.read_jump h, decode]
  rfl

/-- An assignment. -/
theorem mirrors_assignment {name : String} {value : Expression}
    (h : (Terminal.name name).WellFormed) (hvalue : Spells value.code value.terminals)
    (blank : Nat) :
    Mirrors (Statement.assignment name value blank).lines
      (Statement.assignment name value blank).terminals
      (.keyword .LET :: .name name :: .operator .assign :: value.terminals ++ [.lineEnd]) := by
  have hmiddle : OneLine " = " := by decide
  have hclose : OneLine ";" := by decide
  have hline := (((oneLine_name h).append hmiddle).append
    (oneLine_of_isText hvalue.isText)).append hclose
  refine mirrors_of_line _ (.keyword .LET :: .name name :: .operator .assign :: value.terminals)
    hline ?_ (fun guards more => ?_) blank
  · simp only [List.forall_mem_cons]
    exact ⟨Kind.noConfusion, Kind.noConfusion, Kind.noConfusion, hvalue.not_lineEnd⟩
  · rw [Clause.read_assignment h hvalue, decode]
    rfl

/-- An INPUT statement: its first line says everything. -/
theorem mirrors_input {name : String} (h : (Terminal.name name).WellFormed) (blank : Nat) :
    Mirrors (Statement.input name blank).lines (Statement.input name blank).terminals
      [.keyword .INPUT, .name name, .lineEnd] := by
  have hname := oneLine_name h
  have hopen : OneLine "if(0 == scanf(\"%f\", &" := by decide
  have hclose : OneLine ")) \x7b" := by decide
  have hzero : OneLine " = 0;" := by decide
  refine ⟨?_, fun guards more => ?_, fun {rest} hrest => ?_⟩
  · rw [Statement.lines]
    simp only [List.forall_mem_cons]
    exact ⟨(hopen.append hname).append hclose, hname.append hzero, by decide, by decide, by simp⟩
  · rw [Statement.lines, clauses, List.map_cons, Clause.read_input h]
    rfl
  · have hfront : ∀ t ∈ [Terminal.keyword .INPUT, .name name], t.kind ≠ .lineEnd := by
      simp [Terminal.keyword, Terminal.name]
    exact (squeeze_append hfront _).trans (congrArg _ (squeeze_lineEnds hrest blank))

/-- Statements do not begin with a line end. -/
theorem Statement.begun_listTerminals (statements : List Statement) {rest : List Terminal}
    (hrest : Begun rest) : Begun (listTerminals statements ++ rest) := by
  cases statements with
  | nil => exact hrest
  | cons statement statements =>
    intro terminal hhead
    rw [listTerminals, List.append_assoc] at hhead
    obtain ⟨k, hkeyword, -⟩ := statement.head?_terminals (listTerminals statements ++ rest)
    rw [hkeyword] at hhead
    cases hhead
    exact Kind.noConfusion

/-- A sequence that begins with a reserved word does not begin with a line end. -/
theorem begun_keyword (k : Keyword) (rest : List Terminal) : Begun (.keyword k :: rest) := by
  intro terminal hhead
  cases hhead
  exact Kind.noConfusion

/-- A block stands for what its condition and its statements stand for. -/
theorem mirrors_guarded {guard : Guard} {condition : Condition} {body : List Statement}
    {squeezed : List Terminal}
    (hbody : Mirrors (Statement.listLines body) (Statement.listTerminals body) squeezed)
    (hcondition : Spells condition.code condition.terminals) (opening blank : Nat) :
    Mirrors (Statement.guarded guard condition opening body blank).lines
      (Statement.guarded guard condition opening body blank).terminals
      (.keyword guard.leading :: condition.terminals ++ .keyword guard.opening :: .lineEnd ::
        (squeezed ++ [.keyword guard.closing, .lineEnd])) := by
  refine ⟨?_, fun guards more => ?_, fun {rest} hrest => ?_⟩
  · have hword : OneLine guard.code := by cases guard <;> decide
    have hopen : OneLine "(" := by decide
    have hclose : OneLine ")\x7b" := by decide
    have hcode := oneLine_of_isText hcondition.isText
    rw [Statement.lines, List.forall_mem_cons, List.forall_mem_append]
    exact ⟨((hword.append hopen).append hcode).append hclose, hbody.oneLine, by decide⟩
  -- Behind the body the guard of this block is the innermost one again, so the closing line is its.
  · have hinner := hbody.decode (guard :: guards) (.closing :: more)
    have hlines : clauses (Statement.guarded guard condition opening body blank).lines ++ more =
        .opening guard condition.terminals ::
          (clauses (Statement.listLines body) ++ .closing :: more) := by
      rw [Statement.lines, clauses, List.map_cons, Clause.read_opening guard hcondition,
        List.map_append, List.cons_append, List.append_assoc]
      rfl
    rw [decode] at hinner
    rw [hlines, decode, hinner]
    simp
  · have hfront : ∀ t ∈ Terminal.keyword guard.leading :: condition.terminals ++
        [.keyword guard.opening], t.kind ≠ .lineEnd := by
      rw [List.forall_mem_append, List.forall_mem_cons]
      exact ⟨⟨Kind.noConfusion, hcondition.not_lineEnd⟩, by simp [Terminal.keyword]⟩
    have hclosing : ∀ t ∈ [Terminal.keyword guard.closing], t.kind ≠ .lineEnd := by
      simp [Terminal.keyword]
    have hterminals : (Statement.guarded guard condition opening body blank).terminals ++ rest =
        (Terminal.keyword guard.leading :: condition.terminals ++ [.keyword guard.opening]) ++
          (lineEnds opening ++ (Statement.listTerminals body ++
            ([.keyword guard.closing] ++ (lineEnds blank ++ rest)))) := by
      simp [Statement.terminals]
    have hblock : Begun ([.keyword guard.closing] ++ (lineEnds blank ++ rest)) :=
      begun_keyword _ _
    rw [hterminals, squeeze_append hfront,
      squeeze_lineEnds (Statement.begun_listTerminals body hblock), hbody.squeeze hblock,
      squeeze_append hclosing, squeeze_lineEnds hrest]
    simp

mutual

/-- A statement stands for its terminals without blank lines. -/
theorem Statement.mirrors (statement : Statement)
    (h : ∀ t ∈ statement.terminals, t.WellFormed) :
    ∃ squeezed, Mirrors statement.lines statement.terminals squeezed := by
  cases statement with
  | printText text blank =>
    exact ⟨_, mirrors_printText (h _ (List.mem_cons_of_mem _ List.mem_cons_self)) blank⟩
  | printValue value blank =>
    have hvalue := Expression.spells fun t ht =>
      h t (List.mem_cons_of_mem _ (List.mem_append_left _ ht))
    exact ⟨_, mirrors_printValue hvalue blank⟩
  | guarded guard condition opening body blank =>
    have hcondition := @Condition.spells condition fun t ht => h t (by simp [terminals, ht])
    obtain ⟨squeezed, hbody⟩ := list_mirrors body fun t ht => h t (by simp [terminals, ht])
    exact ⟨_, mirrors_guarded hbody hcondition opening blank⟩
  | label name blank =>
    exact ⟨_, mirrors_label (h _ (List.mem_cons_of_mem _ List.mem_cons_self)) blank⟩
  | jump name blank =>
    exact ⟨_, mirrors_jump (h _ (List.mem_cons_of_mem _ List.mem_cons_self)) blank⟩
  | assignment name value blank =>
    have hvalue := @Expression.spells value fun t ht => h t (by simp [terminals, ht])
    exact ⟨_, mirrors_assignment (h _ (List.mem_cons_of_mem _ List.mem_cons_self)) hvalue blank⟩
  | input name blank =>
    exact ⟨_, mirrors_input (h _ (List.mem_cons_of_mem _ List.mem_cons_self)) blank⟩

/-- Statements in a row stand for their terminals without blank lines. -/
theorem Statement.list_mirrors (statements : List Statement)
    (h : ∀ t ∈ listTerminals statements, t.WellFormed) :
    ∃ squeezed, Mirrors (listLines statements) (listTerminals statements) squeezed := by
  cases statements with
  | nil => exact ⟨[], List.forall_mem_nil _, fun _ _ => rfl, fun _ => rfl⟩
  | cons statement statements =>
    obtain ⟨first, hfirst⟩ := statement.mirrors fun t ht => h t (List.mem_append_left _ ht)
    obtain ⟨others, hothers⟩ := list_mirrors statements fun t ht =>
      h t (List.mem_append_right _ ht)
    refine ⟨first ++ others, ?_, fun guards more => ?_, fun {rest} hrest => ?_⟩
    · exact List.forall_mem_append.mpr ⟨hfirst.oneLine, hothers.oneLine⟩
    · rw [listLines, clauses, List.map_append, List.append_assoc]
      exact (hfirst.decode guards _).trans
        ((congrArg _ (hothers.decode guards more)).trans (List.append_assoc _ _ _).symm)
    · rw [listTerminals, List.append_assoc, hfirst.squeeze (begun_listTerminals statements hrest),
        hothers.squeeze hrest, List.append_assoc]

end

/-! ## Whole programs -/

/-- The variables of a program whose terminals are well-formed are names. -/
theorem Program.wellFormed_variableNames {program : Program}
    (h : ∀ t ∈ program.terminals, t.WellFormed) :
    ∀ word ∈ program.variableNames, (Terminal.name word).WellFormed := by
  intro word hword
  rw [program.variableNames_eq] at hword
  rcases Names.mem_declared_afterAll.mp hword with hnone | hassigned
  · cases hnone
  · exact h _ (program.named _ hassigned)

/-- The header says nothing about the statements. -/
theorem Program.decode_headerLines {program : Program}
    (h : ∀ t ∈ program.terminals, t.WellFormed) (more : List Clause) :
    decode [] (clauses program.headerLines ++ more) = decode [] more := by
  have hnames := program.wellFormed_variableNames h
  have hdeclarations : ∀ words : List String, (∀ word ∈ words, (Terminal.name word).WellFormed) →
      decode [] (clauses (words.map fun name => "float " ++ name ++ ";") ++ more) =
        decode [] more := by
    intro words hwords
    induction words with
    | nil => rfl
    | cons word words ih =>
      have hfirst := hwords word List.mem_cons_self
      have hothers := ih fun other hother => hwords other (List.mem_cons_of_mem _ hother)
      rw [List.map_cons, clauses, List.map_cons, Clause.read_declaration hfirst, List.cons_append,
        decode]
      exact hothers
  rw [Program.headerLines, clauses, List.map_append, List.append_assoc]
  exact hdeclarations program.variableNames hnames

/-- The lines of a program whose terminals are well-formed have no line ends in them. -/
theorem Program.oneLine_lines {program : Program} (h : ∀ t ∈ program.terminals, t.WellFormed)
    {squeezed : List Terminal}
    (hbody : Mirrors program.bodyLines (Statement.listTerminals program.statements) squeezed) :
    ∀ line ∈ program.headerLines ++ program.bodyLines ++ footerLines, OneLine line := by
  have hnames := program.wellFormed_variableNames h
  have hopen : OneLine "float " := by decide
  have hclose : OneLine ";" := by decide
  rw [List.forall_mem_append, List.forall_mem_append, Program.headerLines, List.forall_mem_append]
  refine ⟨⟨⟨by decide, fun line hline => ?_⟩, hbody.oneLine⟩, by decide⟩
  obtain ⟨word, hword, rfl⟩ := List.mem_map.mp hline
  exact (hopen.append (oneLine_name (hnames word hword))).append hclose

/-- The C text of a program tells its terminals, blank lines aside. -/
theorem Program.decode_lines {program : Program} (h : ∀ t ∈ program.terminals, t.WellFormed) :
    decode [] ((Text.lines program.text).map Clause.read) =
      withoutBlankLines program.terminals := by
  have hstatements : ∀ t ∈ Statement.listTerminals program.statements, t.WellFormed := by
    intro t ht
    exact h t (List.mem_append_left _ (List.mem_append_right _ ht))
  -- Of the header and of the last lines nothing is left, and the body stands for the statements.
  obtain ⟨squeezed, hbody⟩ := Statement.list_mirrors program.statements hstatements
  have hend : Begun [.endOfInput] := by
    intro terminal hhead
    cases hhead
    exact Kind.noConfusion
  have hclauses : (Text.lines program.text).map Clause.read =
      clauses program.headerLines ++ (clauses program.bodyLines ++ clauses footerLines) := by
    rw [Program.text, Text.lines_unlines (program.oneLine_lines h hbody), List.map_map]
    simp [clauses, Function.comp_def]
  have hdropped : program.terminals.dropWhile (fun terminal => terminal.kind = .lineEnd) =
      Statement.listTerminals program.statements ++ [.endOfInput] := by
    rw [Program.terminals, List.append_assoc]
    refine (takeWhile_append_of_boundary (fun terminal hmem => ?_) fun terminal hhead => ?_).2
    · rw [List.eq_of_mem_replicate hmem]
      rfl
    · exact decide_eq_false (Statement.begun_listTerminals _ hend terminal hhead)
  have hfooter : decode [] (clauses footerLines) = [.endOfInput] := by decide +kernel
  rw [hclauses, Program.decode_headerLines h, Program.bodyLines, hbody.decode, withoutBlankLines,
    hdropped, hbody.squeeze hend, hfooter]
  rfl

/-- The C text of a source tells the terminals of the source, blank lines aside. -/
theorem decode_of_compile {source code : String} {tokens : List Token}
    (h : compile source = .ok code) (hreads : (Cursor.ofSource source).Reads tokens) :
    decode [] ((Text.lines code).map Clause.read) =
      withoutBlankLines (tokens.map Token.terminal) := by
  obtain ⟨tokens', program, hreads', hterminals, -, rfl⟩ := compile_eq_ok_iff.mp h
  obtain rfl := hreads.unique hreads'
  rw [hterminals]
  refine program.decode_lines fun t ht => ?_
  rw [← hterminals] at ht
  obtain ⟨token, htoken, rfl⟩ := List.mem_map.mp ht
  exact hreads.wellFormed token htoken

/-- The C text loses nothing but trivia: two sources with the same C text have the same terminals,
once the line ends in front are dropped and line ends in a row are one. -/
theorem terminals_eq_of_compile_eq {source source' code : String} {tokens tokens' : List Token}
    (h : compile source = .ok code) (h' : compile source' = .ok code)
    (hreads : (Cursor.ofSource source).Reads tokens)
    (hreads' : (Cursor.ofSource source').Reads tokens') :
    withoutBlankLines (tokens.map Token.terminal) =
      withoutBlankLines (tokens'.map Token.terminal) := by
  rw [← decode_of_compile h hreads, ← decode_of_compile h' hreads']

/-- Blanks, a comment and blank lines are all that two sources with one C text differ in. -/
theorem terminals_eq_of_compile_eq_input :
    let tokens : List Token :=
      [⟨.keyword .INPUT, "INPUT", ⟨1, 1⟩⟩, ⟨.name, "a", ⟨1, 7⟩⟩, ⟨.lineEnd, "\n", ⟨1, 8⟩⟩,
        ⟨.keyword .PRINT, "PRINT", ⟨2, 1⟩⟩, ⟨.name, "a", ⟨2, 7⟩⟩, ⟨.lineEnd, "\n", ⟨2, 8⟩⟩,
        ⟨.endOfInput, "", ⟨3, 1⟩⟩]
    let tokens' : List Token :=
      [⟨.lineEnd, "\n", ⟨1, 1⟩⟩, ⟨.keyword .INPUT, "INPUT", ⟨2, 1⟩⟩, ⟨.name, "a", ⟨2, 7⟩⟩,
        ⟨.lineEnd, "\n", ⟨2, 11⟩⟩, ⟨.lineEnd, "\n", ⟨3, 1⟩⟩, ⟨.lineEnd, "\n", ⟨4, 1⟩⟩,
        ⟨.keyword .PRINT, "PRINT", ⟨5, 1⟩⟩, ⟨.name, "a", ⟨5, 8⟩⟩, ⟨.lineEnd, "\n", ⟨5, 9⟩⟩,
        ⟨.endOfInput, "", ⟨6, 1⟩⟩]
    let code := "#include <stdio.h>\nint main(void)\x7b\nfloat a;\n" ++
      "if(0 == scanf(\"%f\", &a)) \x7b\na = 0;\nscanf(\"%*s\");\n\x7d\n" ++
      "printf(\"%.2f\\n\", (float)(a));\nreturn 0;\n\x7d\n"
    compile "INPUT a\nPRINT a\n" = .ok code ∧
      compile "\nINPUT a #!\n\n\nPRINT  a\n" = .ok code ∧
      (Cursor.ofSource "INPUT a\nPRINT a\n").Reads tokens ∧
      (Cursor.ofSource "\nINPUT a #!\n\n\nPRINT  a\n").Reads tokens' ∧
      withoutBlankLines (tokens.map Token.terminal) =
        withoutBlankLines (tokens'.map Token.terminal) := by
  intro tokens tokens' code
  have h : compile "INPUT a\nPRINT a\n" = .ok code := by decide +kernel
  have h' : compile "\nINPUT a #!\n\n\nPRINT  a\n" = .ok code := by decide +kernel
  have hreads : (Cursor.ofSource "INPUT a\nPRINT a\n").Reads tokens := by
    iterate 6 refine .token rfl (by decide) ?_
    exact .finish rfl rfl
  have hreads' : (Cursor.ofSource "\nINPUT a #!\n\n\nPRINT  a\n").Reads tokens' := by
    iterate 9 refine .token rfl (by decide) ?_
    exact .finish rfl rfl
  exact ⟨h, h', hreads, hreads', terminals_eq_of_compile_eq h h' hreads hreads'⟩

end BasicCompiler
