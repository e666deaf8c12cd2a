import BasicCompiler.Proofs.Generated.Parts

/-!
# Declarations

The header of a C text is written while its statements are read: a variable gets its line when a
statement that gives it a value ends. Read `declares_each_target_once` first: the header has one
line for each such variable, in the order in which they first get a value, no line of a statement
uses any other variable, and no jump has any other number of labels than one.
-/

namespace BasicCompiler

/-! ## The order of declarations -/

/-- The names are those that were seen, each of them once, in the order in which they were first
seen. -/
structure FirstSeen (names seen : List String) : Prop where
  mem_iff : ∀ name, name ∈ names ↔ name ∈ seen
  ordered : names.Pairwise fun a b => seen.idxOf a < seen.idxOf b

/-- Nothing was seen. -/
theorem FirstSeen.nil : FirstSeen [] [] :=
  ⟨fun _ => Iff.rfl, .nil⟩

/-- One more name is seen, and included unless it was seen before. -/
theorem FirstSeen.including {names seen : List String} (h : FirstSeen names seen) (name : String) :
    FirstSeen (including names name) (seen ++ [name]) := by
  -- What was seen before keeps its place.
  have hplace : names.Pairwise fun a b =>
      (seen ++ [name]).idxOf a < (seen ++ [name]).idxOf b := by
    refine h.ordered.imp_of_mem fun ha hb hlt => ?_
    rw [List.idxOf_append, List.idxOf_append, if_pos ((h.mem_iff _).mp ha),
      if_pos ((h.mem_iff _).mp hb)]
    exact hlt
  refine ⟨fun other => ?_, ?_⟩
  · rw [Names.mem_including, h.mem_iff, List.mem_append, List.mem_singleton]
  · unfold BasicCompiler.including
    split
    · exact hplace
    · next hnew =>
      refine List.pairwise_append.mpr ⟨hplace, List.pairwise_singleton _ _, ?_⟩
      intro a ha b hb
      obtain rfl := List.mem_singleton.mp hb
      have hnot : b ∉ seen := fun hmem => hnew ((h.mem_iff b).mpr hmem)
      rw [List.idxOf_append, List.idxOf_append, if_pos ((h.mem_iff a).mp ha), if_neg hnot]
      exact Nat.lt_of_lt_of_le (List.idxOf_lt_length_of_mem ((h.mem_iff a).mp ha))
        (Nat.le_add_left _ _)

/-- More names are seen, one after the other. -/
theorem FirstSeen.foldl_including {names seen : List String} (h : FirstSeen names seen)
    (more : List String) : FirstSeen (more.foldl BasicCompiler.including names) (seen ++ more) := by
  induction more generalizing names seen with
  | nil =>
    rw [List.append_nil]
    exact h
  | cons name more ih =>
    have hothers := ih (h.including name)
    rw [List.append_assoc] at hothers
    exact hothers

/-- The variables of a program are in the order in which they first get a value. -/
theorem Program.firstSeen_variableNames (program : Program) :
    FirstSeen program.variableNames (assignedNames program.mentions) :=
  FirstSeen.nil.foldl_including _

/-! ## The names in the lines of statements -/

/-- The variables that a line sets, reads from the input, or calculates with. -/
def Clause.variables : Clause → List String
  | .printValue value => namesIn value
  | .opening _ condition => namesIn condition
  | .assignment name value => name :: namesIn value
  | .input name => [name]
  | .printText _ | .closing | .label _ | .jump _ | .other => []

/-- The mentions say that the variable is used. -/
def Uses (mentions : List Mention) (name : String) : Prop :=
  .read name ∈ mentions ∨ .assigned name ∈ mentions

/-- The names among terminals that only read are used. -/
theorem ReadsNames.uses {terminals : List Terminal} {mentions : List Mention}
    (h : ReadsNames terminals mentions) {name : String} (hname : name ∈ namesIn terminals) :
    Uses mentions name := by
  rw [h.mentions_eq]
  exact .inl (List.mem_map_of_mem hname)

/-- More mentions behind take nothing away. -/
theorem Uses.append_right {mentions : List Mention} {name : String} (h : Uses mentions name)
    (more : List Mention) : Uses (mentions ++ more) name := by
  obtain h | h := h
  · exact .inl (List.mem_append_left _ h)
  · exact .inr (List.mem_append_left _ h)

/-- More mentions in front take nothing away. -/
theorem Uses.append_left {mentions : List Mention} {name : String} (h : Uses mentions name)
    (more : List Mention) : Uses (more ++ mentions) name := by
  obtain h | h := h
  · exact .inl (List.mem_append_right _ h)
  · exact .inr (List.mem_append_right _ h)

/-- A program that uses a variable gives it a value. -/
theorem Program.Scoped.mem_variableNames {program : Program} (h : program.Scoped) {name : String}
    (huses : Uses program.mentions name) : name ∈ program.variableNames := by
  have hassigned : .assigned name ∈ program.mentions := by
    obtain hread | hassigned := huses
    · obtain ⟨before, after, hsplit⟩ := List.append_of_mem hread
      rw [hsplit]
      exact List.mem_append_left _ (h.reads_assigned before name after hsplit)
    · exact hassigned
  rw [program.variableNames_eq]
  exact Names.mem_declared_afterAll.mpr (.inr hassigned)

mutual

/-- The lines of a statement use the variables that the statement uses. -/
theorem Statement.uses_of_mem_clauses {statement : Statement} {clause : Clause}
    (h : clause ∈ statement.clauses) {name : String} (hname : name ∈ clause.variables) :
    Uses statement.mentions name := by
  cases statement with
  | printText text blank =>
    obtain rfl := List.mem_singleton.mp h
    cases hname
  | printValue value blank =>
    obtain rfl := List.mem_singleton.mp h
    exact value.readsNames.uses hname
  | guarded guard condition opening body blank =>
    rcases List.mem_cons.mp h with rfl | h
    · exact (condition.readsNames.uses hname).append_right _
    · rcases List.mem_append.mp h with h | h
      · exact (list_uses_of_mem_clauses h hname).append_left _
      · obtain rfl := List.mem_singleton.mp h
        cases hname
  | label word blank =>
    obtain rfl := List.mem_singleton.mp h
    cases hname
  | jump word blank =>
    obtain rfl := List.mem_singleton.mp h
    cases hname
  | assignment word value blank =>
    obtain rfl := List.mem_singleton.mp h
    rcases List.mem_cons.mp hname with rfl | hname
    · exact .inr (List.mem_append_right _ List.mem_cons_self)
    · exact (value.readsNames.uses hname).append_right _
  | input word blank =>
    have hword : name = word := by
      simp only [clauses, List.mem_cons, List.not_mem_nil, or_false] at h
      rcases h with rfl | rfl | rfl | rfl
      · exact List.mem_singleton.mp hname
      · exact List.mem_singleton.mp hname
      · cases hname
      · cases hname
    rw [hword]
    exact .inr List.mem_cons_self

/-- The lines of statements in a row use the variables that the statements use. -/
theorem Statement.list_uses_of_mem_clauses {statements : List Statement} {clause : Clause}
    (h : clause ∈ listClauses statements) {name : String} (hname : name ∈ clause.variables) :
    Uses (listMentions statements) name := by
  cases statements with
  | nil => cases h
  | cons statement statements =>
    rcases List.mem_append.mp h with h | h
    · exact (uses_of_mem_clauses h hname).append_right _
    · exact (list_uses_of_mem_clauses h hname).append_left _

end

/-! ## The labels of jumps -/

mutual

/-- A statement with the line of a jump jumps. -/
theorem Statement.mem_mentions_of_jump {statement : Statement} {name : String}
    (h : .jump name ∈ statement.clauses) : .jump name ∈ statement.mentions := by
  cases statement with
  | printText | printValue | label | assignment | input => simp [clauses] at h
  | guarded guard condition opening body blank =>
    have hbody : .jump name ∈ listClauses body := by simpa [clauses] using h
    exact List.mem_append_right _ (list_mem_mentions_of_jump hbody)
  | jump word blank =>
    obtain ⟨⟩ := List.mem_singleton.mp h
    exact List.mem_cons_self

/-- Statements in a row with the line of a jump jump. -/
theorem Statement.list_mem_mentions_of_jump {statements : List Statement} {name : String}
    (h : .jump name ∈ listClauses statements) : .jump name ∈ listMentions statements := by
  cases statements with
  | nil => cases h
  | cons statement statements =>
    rcases List.mem_append.mp h with h | h
    · exact List.mem_append_left _ (mem_mentions_of_jump h)
    · exact List.mem_append_right _ (list_mem_mentions_of_jump h)

end

section Labels

variable {name : String}

/-- The line of a label is no line that says anything else. -/
theorem count_label_eq_zero (hname : (Terminal.name name).WellFormed) {lines : List String}
    (h : .label name ∉ clauses lines) : lines.count (name ++ ":") = 0 := by
  refine List.count_eq_zero.mpr fun hmem => h ?_
  exact List.mem_map.mpr ⟨_, hmem, Clause.read_label hname⟩

/-- What only reads declares no labels. -/
theorem ReadsNames.labelNames_eq {terminals : List Terminal} {mentions : List Mention}
    (h : ReadsNames terminals mentions) : labelNames mentions = [] := by
  rw [h.mentions_eq, labelNames, List.filterMap_eq_nil_iff]
  intro mention hmem
  obtain ⟨word, -, rfl⟩ := List.mem_map.mp hmem
  rfl

/-- The labels of two stretches of mentions. -/
theorem labelNames_append (first second : List Mention) :
    labelNames (first ++ second) = labelNames first ++ labelNames second :=
  List.filterMap_append

mutual

/-- A statement has as many lines for a label as it declares the label. -/
theorem Statement.count_label_lines (hname : (Terminal.name name).WellFormed)
    (statement : Statement) (h : ∀ t ∈ statement.terminals, t.WellFormed) :
    statement.lines.count (name ++ ":") = (labelNames statement.mentions).count name := by
  have hclauses := statement.clauses_lines h
  cases statement with
  | printText text blank => exact count_label_eq_zero hname (by simp [hclauses, clauses])
  | printValue value blank =>
    rw [mentions, value.readsNames.labelNames_eq]
    exact count_label_eq_zero hname (by simp [hclauses, clauses])
  | guarded guard condition opening body blank =>
    have hbody := list_count_label_lines hname body fun t ht => h t (by simp [terminals, ht])
    have hopen : (guard.code ++ "(" ++ condition.code ++ ")\x7b" == name ++ ":") = false := by
      rw [beq_eq_false_iff_ne]
      intro hline
      have hread : Clause.read _ = .opening guard condition.terminals :=
        List.head_eq_of_cons_eq hclauses
      rw [hline, Clause.read_label hname] at hread
      cases hread
    have hclosing : BasicCompiler.clauses ["\x7d"] = [.closing] := rfl
    have hclose : ["\x7d"].count (name ++ ":") = 0 :=
      count_label_eq_zero hname (by simp [hclosing])
    rw [lines, List.count_cons, hopen, List.count_append, hclose, hbody, mentions,
      labelNames_append, condition.readsNames.labelNames_eq]
    rfl
  | label word blank =>
    have hsame : (word ++ ":" == name ++ ":") = (word == name) := by
      rw [Bool.eq_iff_iff, beq_iff_eq, beq_iff_eq]
      exact String.append_left_inj ":"
    rw [lines, List.count_singleton, hsame]
    exact List.count_singleton.symm
  | jump word blank => exact count_label_eq_zero hname (by simp [hclauses, clauses])
  | assignment word value blank =>
    rw [mentions, labelNames_append, value.readsNames.labelNames_eq]
    exact count_label_eq_zero hname (by simp [hclauses, clauses])
  | input word blank => exact count_label_eq_zero hname (by simp [hclauses, clauses])

/-- Statements in a row have as many lines for a label as they declare the label. -/
theorem Statement.list_count_label_lines (hname : (Terminal.name name).WellFormed)
    (statements : List Statement) (h : ∀ t ∈ listTerminals statements, t.WellFormed) :
    (listLines statements).count (name ++ ":") =
      (labelNames (listMentions statements)).count name := by
  cases statements with
  | nil => rfl
  | cons statement statements =>
    have hfirst := statement.count_label_lines hname fun t ht => h t (List.mem_append_left _ ht)
    have hothers := list_count_label_lines hname statements fun t ht =>
      h t (List.mem_append_right _ ht)
    rw [listLines, List.count_append, hfirst, hothers, listMentions, labelNames_append,
      List.count_append]

end

end Labels

/-! ## Whole texts -/

/-- The label of a jump in a program with well-formed terminals has one line. -/
theorem Program.count_label_of_jump {program : Program}
    (h : ∀ t ∈ program.terminals, t.WellFormed) (hscoped : program.Scoped) {name : String}
    (hjump : .jump name ∈ program.mentions) : program.bodyLines.count (name ++ ":") = 1 := by
  have hname : (Terminal.name name).WellFormed := h _ (program.named _ hjump)
  have hlabel : name ∈ labelNames program.mentions :=
    Names.mem_labelNames.mpr (hscoped.jumps_labelled name hjump)
  have hlines := Statement.list_count_label_lines hname program.statements (wellFormed_statements h)
  exact hlines.trans (Nat.le_antisymm (List.nodup_iff_count.mp hscoped.labels_nodup name)
    (List.count_pos_iff.mpr hlabel))

/-- The C text of a source is the preamble, one declaration for each variable that a LET or an
INPUT gives a value, in the order in which they first do so, the lines of the statements, and the
epilogue. The lines of the statements use no other variables, and each jump in them has one line
for its label. -/
theorem declares_each_target_once {source code : String} (h : compile source = .ok code) :
    ∃ names : List String,
      code = unlines (Fragment.preamble ++ names.map Fragment.declaration ++ statementLines code ++
        Fragment.epilogue) ∧
      FirstSeen names (targets (sourceTerminals source)) ∧
      (∀ line ∈ statementLines code, ∀ name ∈ (Clause.read line.toList).variables,
        name ∈ names) ∧
      ∀ line ∈ statementLines code, ∀ name, Clause.read line.toList = .jump name →
        (statementLines code).count (name ++ ":") = 1 := by
  obtain ⟨program, hterminals, hwell, hscoped, rfl⟩ := exists_program_of_compile h
  have hclauses := Statement.list_clauses_lines program.statements
    (Program.wellFormed_statements hwell)
  have hmem : ∀ line ∈ program.bodyLines,
      Clause.read line.toList ∈ Statement.listClauses program.statements := by
    intro line hline
    rw [← hclauses]
    exact List.mem_map_of_mem hline
  rw [hterminals, program.targets_terminals, Program.statementLines_text hwell]
  refine ⟨program.variableNames, rfl, program.firstSeen_variableNames, ?_, ?_⟩
  · intro line hline name hname
    exact hscoped.mem_variableNames (Statement.list_uses_of_mem_clauses (hmem line hline) hname)
  · intro line hline name hjump
    have hline' := hmem line hline
    rw [hjump] at hline'
    exact Program.count_label_of_jump hwell hscoped (Statement.list_mem_mentions_of_jump hline')

/-- A program that sets a variable in a block, uses it behind the block, and jumps back. -/
theorem declares_each_target_once_backward :
    let source := "LABEL a\nINPUT y\nIF y > 0 THEN\nLET x = y\nGOTO a\nENDIF\nLET y = x\n"
    let code := "#include <stdio.h>\nint main(void)\x7b\nfloat y;\nfloat x;\n" ++
      "a:\nif(0 == scanf(\"%f\", &y)) \x7b\ny = 0;\nscanf(\"%*s\");\n\x7d\n" ++
      "if(y > 0)\x7b\nx = y;\ngoto a;\n\x7d\ny = x;\nreturn 0;\n\x7d\n"
    compile source = .ok code ∧
      ∃ names : List String,
        code = unlines (Fragment.preamble ++ names.map Fragment.declaration ++
          statementLines code ++ Fragment.epilogue) ∧
        FirstSeen names (targets (sourceTerminals source)) ∧
        (∀ line ∈ statementLines code, ∀ name ∈ (Clause.read line.toList).variables,
          name ∈ names) ∧
        ∀ line ∈ statementLines code, ∀ name, Clause.read line.toList = .jump name →
          (statementLines code).count (name ++ ":") = 1 := by
  intro source code
  have h : compile source = .ok code := by decide +kernel
  exact ⟨h, declares_each_target_once h⟩

end BasicCompiler
