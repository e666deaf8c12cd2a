import BasicCompiler.Proofs.Target.LineTokens
import BasicCompiler.Proofs.Target.Meaning

/-!
# Expressions in the C lines

An expression does not stand alone in the C text: a line goes on in front of it and behind it. Read
`formula_tokens_of_compile` first: there too C finds the operands, signs and operators of the source
in their order and nothing else, and it finds the tree of the grammar in them.
-/

namespace BasicCompiler

namespace C

/-! ## Texts between others -/

/-- The code stands in the text between what is complete and what begins with a seam. -/
def Framed (code text : String) : Prop :=
  ∃ before behind, text = before ++ code ++ behind ∧ Complete before.toList ∧ Seam behind.toList

/-- A text stands in itself. -/
theorem framed_self (text : String) : Framed text text :=
  ⟨"", "", by simp, complete_nil, nofun⟩

/-- Two texts in a row begin with a seam if each of them does. -/
theorem Seam.append {front rest : List Char} (hfront : Seam front) (hrest : Seam rest) :
    Seam (front ++ rest) := by
  cases front with
  | nil => exact hrest
  | cons c front => exact hfront

/-- What stands in a text stands in every text in which this one stands. -/
theorem Framed.trans {inner code text : String} (hinner : Framed inner code)
    (hcode : Framed code text) : Framed inner text := by
  obtain ⟨before, behind, rfl, hbefore, hbehind⟩ := hinner
  obtain ⟨before', behind', rfl, hbefore', hbehind'⟩ := hcode
  refine ⟨before' ++ before, behind ++ behind', by simp [String.append_assoc], ?_, ?_⟩
  · rw [String.toList_append]
    exact hbefore'.append hbefore
  · rw [String.toList_append]
    exact hbehind.append hbehind'

end C

section Links

variable {joins : Operator → Bool} {Part : Type} {code : Part → String}
  {terminals : Part → List Terminal}

/-- There is a seam in front of links. -/
theorem Link.seamInC (code : Part → String) (links : List (Link joins Part)) :
    C.Seam (Link.code code links).toList := by
  rw [← List.append_nil (Link.code code links).toList]
  exact Link.seamInC_code links nofun

/-- A part of a chain stands between what is complete and a seam: the operator in front of it and
the one behind it have spaces around them. -/
theorem Link.framed
    (hpart : ∀ part, (∀ t ∈ terminals part, t.WellFormed) → C.Spells (code part) (terminals part))
    {links : List (Link joins Part)} (h : ∀ t ∈ Link.terminals terminals links, t.WellFormed)
    {link : Link joins Part} (hmem : link ∈ links) {first : String}
    {firstTerminals : List Terminal} (hfirst : C.Spells first firstTerminals) :
    terminals link.part <:+: Link.terminals terminals links ∧
      C.Framed (code link.part) (first ++ Link.code code links) := by
  -- The links in front of this one go over into the text in front of the others.
  induction links generalizing first firstTerminals with
  | nil => cases hmem
  | cons head links ih =>
    have hterminals : Link.terminals terminals (head :: links) =
        Link.terminals terminals [head] ++ Link.terminals terminals links := by
      simp [Link.terminals]
    have hcode : Link.code code (head :: links) =
        Link.code code [head] ++ Link.code code links := by
      simp [Link.code]
    rcases List.mem_cons.mp hmem with rfl | hmem
    · refine ⟨⟨[.operator link.operator], Link.terminals terminals links, by simp [Link.terminals]⟩,
        first ++ " " ++ link.operator.spelling ++ " ", Link.code code links, ?_, ?_, ?_⟩
      · simp [Link.code, String.append_assoc]
      · simp only [String.toList_append, List.append_assoc]
        exact hfirst.complete rfl (C.complete_operator link.operator)
      · exact Link.seamInC code links
    · rw [hterminals] at h ⊢
      have hhead := Link.spellsInC hpart fun t ht => h t (List.mem_append_left _ ht)
      obtain ⟨hwithin, hframed⟩ := ih (fun t ht => h t (List.mem_append_right _ ht)) hmem
        (hfirst.append_links hhead)
      rw [hcode, ← String.append_assoc]
      exact ⟨hwithin.trans (List.suffix_append _ _).isInfix, hframed⟩

end Links

/-- An expression stands in every condition that compares it with others. -/
theorem Condition.framed {condition : Condition} {expression : Expression}
    (hmem : expression ∈ condition.expressions) (h : ∀ t ∈ condition.terminals, t.WellFormed) :
    expression.terminals <:+: condition.terminals ∧
      C.Framed expression.code condition.code := by
  obtain ⟨first, link, links⟩ := condition
  rcases List.mem_cons.mp hmem with rfl | hmem
  · refine ⟨(List.prefix_append _ _).isInfix, "", Link.code Expression.code (link :: links),
      ?_, C.complete_nil, ?_⟩
    · rw [String.empty_append]
      rfl
    · exact Link.seamInC Expression.code (link :: links)
  · obtain ⟨other, hother, rfl⟩ := List.mem_map.mp hmem
    have hfirst := Expression.spellsInC fun t ht => h t (List.mem_append_left _ ht)
    obtain ⟨hwithin, hframed⟩ := Link.framed (fun _ => Expression.spellsInC)
      (fun t ht => h t (List.mem_append_right _ ht)) hother hfirst
    exact ⟨hwithin.trans (List.suffix_append _ _).isInfix, hframed⟩

/-! ## Formulas -/

/-- What a statement has calculated: a value, or the truth of a condition. -/
inductive Formula where
  | value (expression : Expression)
  | test (condition : Condition)

namespace Formula

/-- The terminals of a formula. -/
def terminals : Formula → List Terminal
  | value expression => expression.terminals
  | test condition => condition.terminals

/-- The text of a formula. -/
def code : Formula → String
  | value expression => expression.code
  | test condition => condition.code

/-- The expressions of a formula. -/
def expressions : Formula → List Expression
  | value expression => [expression]
  | test condition => condition.expressions

/-- The tokens of a formula are its terminals. -/
theorem spellsInC {formula : Formula} (h : ∀ t ∈ formula.terminals, t.WellFormed) :
    C.Spells formula.code formula.terminals := by
  cases formula with
  | value expression => exact Expression.spellsInC h
  | test condition => exact Condition.spellsInC h

/-- An expression stands in the formula it belongs to. -/
theorem framed {formula : Formula} {expression : Expression}
    (hmem : expression ∈ formula.expressions) (h : ∀ t ∈ formula.terminals, t.WellFormed) :
    expression.terminals <:+: formula.terminals ∧ C.Framed expression.code formula.code := by
  cases formula with
  | value expression' =>
    obtain rfl := List.mem_singleton.mp hmem
    exact ⟨List.infix_rfl, C.framed_self _⟩
  | test condition => exact Condition.framed hmem h

end Formula

mutual

/-- The formulas of a statement. -/
def Statement.formulas : Statement → List Formula
  | .printValue value _ | .assignment _ value _ => [.value value]
  | .guarded _ condition _ body _ => .test condition :: Statement.listFormulas body
  | .printText _ _ | .label _ _ | .jump _ _ | .input _ _ => []

/-- The formulas of statements in a row. -/
def Statement.listFormulas : List Statement → List Formula
  | [] => []
  | statement :: statements => statement.formulas ++ Statement.listFormulas statements

end

/-- The formulas of a program. -/
def Program.formulas (program : Program) : List Formula :=
  Statement.listFormulas program.statements

mutual

/-- The expressions of a statement are those of its formulas. -/
theorem Statement.expressions_eq (statement : Statement) :
    statement.expressions = statement.formulas.flatMap Formula.expressions := by
  cases statement with
  | printValue | assignment | printText | label | jump | input => rfl
  | guarded guard condition opening body blank =>
    rw [expressions, formulas, List.flatMap_cons, listExpressions_eq body]
    rfl

/-- The expressions of statements are those of their formulas. -/
theorem Statement.listExpressions_eq (statements : List Statement) :
    listExpressions statements = (listFormulas statements).flatMap Formula.expressions := by
  cases statements with
  | nil => rfl
  | cons statement statements =>
    rw [listExpressions, listFormulas, List.flatMap_append, expressions_eq statement,
      listExpressions_eq statements]

end

/-- The terminals of the formula stand together among some others, and its text stands in one of
the lines. -/
structure Formula.StandsIn (formula : Formula) (terminals : List Terminal) (lines : List String) :
    Prop where
  isPart : formula.terminals <:+: terminals
  exists_line : ∃ line ∈ lines, C.Framed formula.code line

/-- There may be more terminals around and more lines. -/
theorem Formula.StandsIn.mono {formula : Formula} {terminals terminals' : List Terminal}
    {lines lines' : List String} (h : formula.StandsIn terminals lines)
    (hterminals : terminals <:+: terminals') (hlines : lines ⊆ lines') :
    formula.StandsIn terminals' lines' := by
  obtain ⟨line, hline, hframed⟩ := h.exists_line
  exact ⟨h.isPart.trans hterminals, line, hlines hline, hframed⟩

mutual

/-- A formula stands in one of the lines of its statement. -/
theorem Statement.standsIn {statement : Statement} {formula : Formula}
    (hmem : formula ∈ statement.formulas) (h : ∀ t ∈ statement.terminals, t.WellFormed) :
    formula.StandsIn statement.terminals statement.lines := by
  cases statement with
  | printText | label | jump | input => cases hmem
  | printValue value blank =>
    obtain rfl := List.mem_singleton.mp hmem
    refine ⟨⟨[.keyword .PRINT], lineEnds blank, rfl⟩, _, List.mem_cons_self, _, _, rfl,
      C.complete_printValue, ?_⟩
    exact C.seam_delimiter rfl _
  | guarded guard condition opening body blank =>
    rcases List.mem_cons.mp hmem with rfl | hmem
    · refine ⟨⟨[.keyword guard.leading], .keyword guard.opening :: (lineEnds opening ++
        (listTerminals body ++ .keyword guard.closing :: lineEnds blank)), ?_⟩, _,
        List.mem_cons_self, _, _, rfl, C.complete_guard guard, ?_⟩
      · simp [terminals, Formula.terminals]
      · exact C.seam_delimiter rfl _
    · have hbody := list_standsIn hmem fun t ht => h t (by simp [terminals, ht])
      refine hbody.mono ⟨.keyword guard.leading :: condition.terminals ++
        .keyword guard.opening :: lineEnds opening, .keyword guard.closing :: lineEnds blank, ?_⟩ ?_
      · simp [terminals]
      · exact fun line hline => List.mem_cons_of_mem _ (List.mem_append_left _ hline)
  | assignment name value blank =>
    obtain rfl := List.mem_singleton.mp hmem
    have hname : IsWord name.toList := (h (.name name) (by simp [terminals])).1
    refine ⟨⟨[.keyword .LET, .name name, .operator .assign], lineEnds blank, rfl⟩, _,
      List.mem_cons_self, _, _, rfl, C.complete_assignment hname, ?_⟩
    exact C.seam_delimiter rfl _

/-- A formula stands in one of the lines of its statements. -/
theorem Statement.list_standsIn {statements : List Statement} {formula : Formula}
    (hmem : formula ∈ listFormulas statements) (h : ∀ t ∈ listTerminals statements, t.WellFormed) :
    formula.StandsIn (listTerminals statements) (listLines statements) := by
  cases statements with
  | nil => cases hmem
  | cons statement statements =>
    rcases List.mem_append.mp hmem with hmem | hmem
    · have hfirst := standsIn hmem fun t ht => h t (List.mem_append_left _ ht)
      exact hfirst.mono (List.prefix_append _ _).isInfix (List.subset_append_left _ _)
    · have hothers := list_standsIn hmem fun t ht => h t (List.mem_append_right _ ht)
      exact hothers.mono (List.suffix_append _ _).isInfix (List.subset_append_right _ _)

end

/-! ## Whole texts -/

/-- The terminals stand together in the source. Where the code stands in one of the lines, C finds
them, and around them the tokens of the rest of the line. -/
def C.Finds (source terminals : List Terminal) (lines : List String) (code : String) : Prop :=
  terminals <:+: source ∧ ∃ line ∈ lines, ∃ before behind, line = before ++ code ++ behind ∧
    C.tokens line.toList =
      C.tokens before.toList ++ terminals.map .ofTerminal ++ C.tokens behind.toList

/-- C finds the terminals of what stands between something complete and a seam. -/
theorem C.finds_of_framed {source terminals : List Terminal} {lines : List String}
    {code line : String} (hpart : terminals <:+: source) (hspells : C.Spells code terminals)
    (hline : line ∈ lines) (hframed : C.Framed code line) :
    C.Finds source terminals lines code := by
  obtain ⟨before, behind, rfl, hbefore, hbehind⟩ := hframed
  exact ⟨hpart, _, hline, before, behind, rfl, hspells.tokens_between hbefore hbehind⟩

/-- The C lines of a source are made of its operands and operators and of a few fixed tokens around
them. Wherever a condition or an expression of the source is written, C finds its operands and
operators in their order, and it finds the tree of every expression in them. -/
theorem formula_tokens_of_compile {source code : String} (h : compile source = .ok code) :
    ∃ program : Program, sourceTerminals source = program.terminals ∧
      C.lineTokens (statementLines code) = Statement.listTokenLines program.statements ∧
      (∀ formula ∈ program.formulas,
        C.Finds (sourceTerminals source) formula.terminals (statementLines code) formula.code) ∧
      ∀ expression ∈ program.expressions,
        C.Finds (sourceTerminals source) expression.terminals (statementLines code)
          expression.code ∧
        C.parse (expression.terminals.map .ofTerminal) = some expression.tree := by
  obtain ⟨program, hprogram, hwell, -, rfl⟩ := exists_program_of_compile h
  have hstatements := Program.wellFormed_statements hwell
  have hpart : Statement.listTerminals program.statements <:+: program.terminals :=
    List.infix_append _ _ _
  rw [hprogram, Program.statementLines_text hwell]
  refine ⟨program, rfl, Statement.listLineTokens_lines _ hstatements, ?_, ?_⟩
  · intro formula hformula
    obtain ⟨hwithin, line, hline, hframed⟩ := Statement.list_standsIn hformula hstatements
    have hspells := Formula.spellsInC fun t ht => hstatements t (hwithin.subset ht)
    exact C.finds_of_framed (hwithin.trans hpart) hspells hline hframed
  · intro expression hexpression
    rw [Program.expressions, Statement.listExpressions_eq] at hexpression
    obtain ⟨formula, hformula, hexpression⟩ := List.mem_flatMap.mp hexpression
    obtain ⟨hwithin, line, hline, hframed⟩ := Statement.list_standsIn hformula hstatements
    obtain ⟨hwithin', hframed'⟩ := Formula.framed hexpression fun t ht =>
      hstatements t (hwithin.subset ht)
    have hspells := Expression.spellsInC fun t ht =>
      hstatements t ((hwithin'.trans hwithin).subset ht)
    exact ⟨C.finds_of_framed ((hwithin'.trans hwithin).trans hpart) hspells hline
      (hframed'.trans hframed), expression.parse_terminals⟩

/-- A sign behind an operator stays one: nothing is decremented in `3 - -2`, on whichever side of a
comparison it stands. -/
theorem formula_tokens_of_signs :
    ∃ (code : String) (program : Program) (expression : Expression),
      compile "WHILE 1 < 3 - -2 REPEAT\nENDWHILE\n" = .ok code ∧
      sourceTerminals "WHILE 1 < 3 - -2 REPEAT\nENDWHILE\n" = program.terminals ∧
      statementLines code = ["while(1 < 3 - -2)\x7b", "\x7d"] ∧
      C.lineTokens (statementLines code) =
        [[.name "while", .punctuator "(", .number "1", .punctuator "<", .number "3",
          .punctuator "-", .punctuator "-", .number "2", .punctuator ")", .punctuator "\x7b"],
          [.punctuator "\x7d"]] ∧
      expression ∈ program.expressions ∧ expression.code = "3 - -2" ∧
      C.Finds program.terminals expression.terminals (statementLines code) "3 - -2" ∧
      C.parse (expression.terminals.map .ofTerminal) =
        some (.binary .minus (.number "3") (.signed .minus (.number "2"))) := by
  have h : compile "WHILE 1 < 3 - -2 REPEAT\nENDWHILE\n" =
      .ok ("#include <stdio.h>\nint main(void)\x7b\nwhile(1 < 3 - -2)\x7b\n\x7d\n" ++
        "return 0;\n\x7d\n") := by
    decide +kernel
  have hterminals : sourceTerminals "WHILE 1 < 3 - -2 REPEAT\nENDWHILE\n" =
      Program.terminals ⟨0, [.guarded .loop ⟨⟨⟨⟨none, .number "1"⟩, []⟩, []⟩, ⟨.less, rfl,
        ⟨⟨⟨none, .number "3"⟩, []⟩, [⟨.minus, rfl,
          ⟨⟨some ⟨.minus, rfl⟩, .number "2"⟩, []⟩⟩]⟩⟩, []⟩ 0 [] 0]⟩ := by
    decide +kernel
  obtain ⟨program, hprogram, hlines, -, hexpressions⟩ := formula_tokens_of_compile h
  obtain rfl := Program.terminals_injective (hprogram.symm.trans hterminals)
  obtain ⟨hfinds, hparse⟩ := hexpressions _ (List.mem_cons_of_mem _ List.mem_cons_self)
  rw [hterminals] at hfinds
  exact ⟨_, _, _, h, hterminals, by decide +kernel, hlines,
    List.mem_cons_of_mem _ List.mem_cons_self, by decide +kernel, hfinds, hparse⟩

end BasicCompiler
