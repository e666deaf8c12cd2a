import BasicCompiler.Proofs.Target.LineTokens
import BasicCompiler.Proofs.Target.ReservedWords

/-!
# What the labels of the C text stand in front of

A label of C belongs to the statement behind it, and there must be one. Read `labels_lead_iff`
first: in the C text every label has one exactly if no block of the source ends with a label. Behind
the last statement of the program there is always one, as the C text ends with a `return`.
-/

namespace BasicCompiler

namespace C

/-! ## Labels and the lines behind them -/

/-- The words that are reserved in C and begin a statement. -/
def statementWords : List String :=
  ["break", "case", "continue", "default", "do", "for", "goto", "if", "return", "switch", "while",
    "sizeof", "_Alignof", "_Generic"]

/-- The punctuators that begin a statement. -/
def statementPunctuators : List String :=
  ["\x7b", "<%", ";", "(", "++", "--", "&", "*", "+", "-", "~", "!"]

/-- A statement of C can begin with the token. -/
def beginsStatement : Token → Bool
  | .name word => !keywords.contains word || statementWords.contains word
  | .number _ | .literal _ => true
  | .punctuator spelling => statementPunctuators.contains spelling
  | .other _ => false

/-- The token does not close a block. -/
def isInside (token : Token) : Bool :=
  token != .punctuator "\x7d"

/-- The line is a label. -/
def isLabel : List Token → Bool
  | [.name _, .punctuator ":"] => true
  | _ => false

/-- Behind the labels with which the lines begin there is a line, and it leads on. -/
def Leads (leads : Token → Bool) : List (List Token) → Prop
  | [] => False
  | line :: lines => if isLabel line then Leads leads lines else line.head?.any leads = true

/-- Behind every label, and other labels behind it, there is a line that leads on. -/
def LabelsLead (leads : Token → Bool) (lines : List (List Token)) : Prop :=
  ∀ before label behind, lines = before ++ label :: behind → isLabel label = true →
    Leads leads behind

variable {leads : Token → Bool}

/-- There is no label without lines. -/
theorem labelsLead_nil : LabelsLead leads [] := by
  intro before label behind heq
  simp at heq

/-- The labels of a line and others. -/
theorem labelsLead_cons_iff {line : List Token} {lines : List (List Token)} :
    LabelsLead leads (line :: lines) ↔
      (isLabel line = true → Leads leads lines) ∧ LabelsLead leads lines := by
  constructor
  · intro h
    refine ⟨h [] line lines rfl, fun before label behind heq => ?_⟩
    exact h (line :: before) label behind (congrArg (List.cons line) heq)
  · rintro ⟨hline, hlines⟩ before label behind heq hlabel
    cases before with
    | nil =>
      cases heq
      exact hline hlabel
    | cons first before =>
      exact hlines before label behind (List.cons.inj heq).2 hlabel

/-- Whether lines lead on can be decided by looking at them. -/
instance decidableLeads : (lines : List (List Token)) → Decidable (Leads leads lines)
  | [] => isFalse id
  | line :: lines =>
    let _ := decidableLeads lines
    inferInstanceAs (Decidable (if isLabel line then Leads leads lines else _))

/-- Whether labels lead on can be decided by looking at the lines behind each of them. -/
instance decidableLabelsLead : (lines : List (List Token)) → Decidable (LabelsLead leads lines)
  | [] => isTrue labelsLead_nil
  | _ :: lines =>
    let _ := decidableLabelsLead lines
    decidable_of_iff _ labelsLead_cons_iff.symm

/-- Lines that are no labels do not matter in front of others. -/
theorem labelsLead_append_iff {front lines : List (List Token)}
    (h : ∀ line ∈ front, isLabel line = false) :
    LabelsLead leads (front ++ lines) ↔ LabelsLead leads lines := by
  induction front with
  | nil => exact Iff.rfl
  | cons line front ih =>
    obtain ⟨hline, hfront⟩ := List.forall_mem_cons.mp h
    rw [List.cons_append, labelsLead_cons_iff, ih hfront, hline]
    simp

end C

/-! ## Blocks -/

/-- The statement is a label. -/
def Statement.isLabel : Statement → Bool
  | .label _ _ => true
  | _ => false

/-- The last of some statements is a label. -/
def Statement.endsWithLabel (statements : List Statement) : Bool :=
  statements.getLast?.any isLabel

mutual

/-- The blocks of a statement, at any depth. -/
def Statement.blocks : Statement → List (List Statement)
  | .guarded _ _ _ body _ => body :: Statement.listBlocks body
  | _ => []

/-- The blocks of statements in a row, at any depth. -/
def Statement.listBlocks : List Statement → List (List Statement)
  | [] => []
  | statement :: statements => statement.blocks ++ Statement.listBlocks statements

end

/-- The blocks of a program, at any depth. -/
def Program.blocks (program : Program) : List (List Statement) :=
  Statement.listBlocks program.statements

/-! ## Labels in front of statements -/

/-- The words lead on with which the lines of the statements begin, and so do the variables that get
a value. The end of a block does not. -/
structure C.LeadsOn (leads : C.Token → Bool) (mentions : List Mention) : Prop where
  words : ∀ word ∈ ["printf", "if", "while", "goto", "return"], leads (.name word) = true
  assigned : ∀ name, .assigned name ∈ mentions → leads (.name name) = true
  closing : leads (.punctuator "\x7d") = false

/-- Fewer variables may be mentioned. -/
theorem C.LeadsOn.mono {leads : C.Token → Bool} {mentions mentions' : List Mention}
    (h : C.LeadsOn leads mentions') (hsubset : mentions ⊆ mentions') : C.LeadsOn leads mentions :=
  ⟨h.words, fun name hname => h.assigned name (hsubset hname), h.closing⟩

section Statements

variable {leads : C.Token → Bool}

/-- A statement that is no label leads on. A label leaves that to what stands behind it. -/
theorem Statement.leads_append_iff {statement : Statement}
    (h : C.LeadsOn leads statement.mentions) (behind : List (List C.Token)) :
    C.Leads leads (statement.tokenLines ++ behind) ↔
      (statement.isLabel = true → C.Leads leads behind) := by
  cases statement with
  | label name blank => simp [tokenLines, C.Leads, C.isLabel, isLabel]
  | printText text blank | printValue value blank =>
    have hfirst := h.words "printf" (by decide)
    simpa [tokenLines, C.Leads, C.isLabel, isLabel] using hfirst
  | guarded guard condition opening body blank =>
    have hfirst := h.words guard.code (by cases guard <;> decide)
    simpa [tokenLines, C.Leads, C.isLabel, isLabel] using hfirst
  | jump name blank =>
    have hfirst := h.words "goto" (by decide)
    simpa [tokenLines, C.Leads, C.isLabel, isLabel] using hfirst
  | assignment name value blank =>
    have hfirst := h.assigned name (by simp [mentions])
    simpa [tokenLines, C.Leads, C.isLabel, isLabel] using hfirst
  | input name blank =>
    have hfirst := h.words "if" (by decide)
    simpa [tokenLines, C.Leads, C.isLabel, isLabel] using hfirst

/-- Statements lead on unless all of them are labels. Labels leave that to what stands behind
them. -/
theorem Statement.list_leads_append_iff {statements : List Statement}
    (h : C.LeadsOn leads (listMentions statements)) (behind : List (List C.Token)) :
    C.Leads leads (listTokenLines statements ++ behind) ↔
      (statements.all isLabel = true → C.Leads leads behind) := by
  induction statements with
  | nil => simp [listTokenLines]
  | cons statement statements ih =>
    have hfirst := leads_append_iff (h.mono (List.subset_append_left _ _))
    have hothers := ih (h.mono (List.subset_append_right _ _))
    rw [listTokenLines, List.append_assoc, hfirst, hothers, List.all_cons, Bool.and_eq_true]
    exact and_imp.symm

/-- Statements end with a label if this is so without the first of them, or if there are only
labels. -/
theorem Statement.endsWithLabel_cons (statement : Statement) (statements : List Statement) :
    endsWithLabel (statement :: statements) = true ↔
      (statement.isLabel = true ∧ statements.all isLabel = true) ∨
        endsWithLabel statements = true := by
  cases statements with
  | nil => simp [endsWithLabel]
  | cons second others =>
    have hsame : endsWithLabel (statement :: second :: others) =
        endsWithLabel (second :: others) := by
      rw [endsWithLabel, List.getLast?_cons_cons, endsWithLabel]
    have hlast : (second :: others).all isLabel = true →
        endsWithLabel (second :: others) = true := by
      intro hall
      rw [endsWithLabel, List.getLast?_eq_some_getLast (List.cons_ne_nil _ _)]
      exact List.all_eq_true.mp hall _ (List.getLast_mem _)
    rw [hsame]
    exact ⟨.inr, fun h => h.elim (fun hboth => hlast hboth.2) id⟩

mutual

/-- The labels of a statement lead on if its blocks do not end with a label. If the statement is a
label itself, what stands behind it has to lead on. -/
theorem Statement.labelsLead_append_iff (statement : Statement)
    (h : C.LeadsOn leads statement.mentions) (behind : List (List C.Token)) :
    C.LabelsLead leads (statement.tokenLines ++ behind) ↔
      (statement.isLabel = true → C.Leads leads behind) ∧
        (∀ block ∈ statement.blocks, endsWithLabel block = false) ∧
        C.LabelsLead leads behind := by
  cases statement with
  | label name blank | printText text blank | printValue value blank | jump name blank
  | assignment name value blank | input name blank =>
    simp [tokenLines, C.labelsLead_cons_iff, C.isLabel, isLabel, blocks]
  | guarded guard condition opening body blank =>
    have hbody := list_labelsLead_append_iff body (h.mono (List.subset_append_right _ _))
      ([.punctuator "\x7d"] :: behind)
    -- Behind the statements of the block there is only its end, which does not lead on.
    have hend : ¬ C.Leads leads ([.punctuator "\x7d"] :: behind) := by
      simp [C.Leads, C.isLabel, h.closing]
    simp only [tokenLines, List.cons_append, List.append_assoc, List.nil_append]
    rw [C.labelsLead_cons_iff, hbody, C.labelsLead_cons_iff]
    simp [C.isLabel, isLabel, blocks, hend, and_assoc]

/-- The labels of statements lead on if their blocks do not end with a label. If the last statement
is a label, what stands behind it has to lead on. -/
theorem Statement.list_labelsLead_append_iff (statements : List Statement)
    (h : C.LeadsOn leads (listMentions statements)) (behind : List (List C.Token)) :
    C.LabelsLead leads (listTokenLines statements ++ behind) ↔
      (endsWithLabel statements = true → C.Leads leads behind) ∧
        (∀ block ∈ listBlocks statements, endsWithLabel block = false) ∧
        C.LabelsLead leads behind := by
  cases statements with
  | nil => simp [listTokenLines, listBlocks, endsWithLabel]
  | cons statement statements =>
    have hothers := h.mono (List.subset_append_right _ _)
    rw [listTokenLines, List.append_assoc,
      labelsLead_append_iff statement (h.mono (List.subset_append_left _ _)),
      list_leads_append_iff hothers, list_labelsLead_append_iff statements hothers,
      endsWithLabel_cons, listBlocks, List.forall_mem_append]
    constructor
    · rintro ⟨halone, hblocks, hlast, hothers, hbehind⟩
      exact ⟨fun hends => hends.elim (fun hboth => halone hboth.1 hboth.2) hlast,
        ⟨hblocks, hothers⟩, hbehind⟩
    · rintro ⟨hends, ⟨hblocks, hothers⟩, hbehind⟩
      exact ⟨fun hlabel hall => hends (.inl ⟨hlabel, hall⟩), hblocks,
        fun hlast => hends (.inr hlast), hothers, hbehind⟩

end

end Statements

/-! ## Whole texts -/

/-- The lines in front of the statements are no labels. -/
theorem Program.isLabel_headerLines {program : Program}
    (h : ∀ t ∈ program.terminals, t.WellFormed) :
    ∀ line ∈ C.lineTokens program.headerLines, C.isLabel line = false := by
  have hfixed : ∀ line ∈ ["#include <stdio.h>", "int main(void)\x7b"],
      C.isLabel (C.tokens line.toList) = false := by
    decide +kernel
  have hdeclarations : ∀ line ∈ program.variableNames.map Fragment.declaration,
      C.isLabel (C.tokens line.toList) = false := by
    intro line hline
    obtain ⟨name, hname, rfl⟩ := List.mem_map.mp hline
    have hword : IsWord "float".toList := C.isWord_of_all rfl
    have hname : IsWord name.toList := (program.wellFormed_variableNames h name hname).1
    have hfront : "float " = "float" ++ " " := by decide
    rw [Fragment.declaration, hfront, C.tokens_words hword hname]
    rfl
  intro tokens htokens
  obtain ⟨line, hline, rfl⟩ := List.mem_map.mp htokens
  rcases List.mem_append.mp hline with hline | hline
  · exact hfixed line hline
  · exact hdeclarations line hline

/-- The labels of a C text lead on exactly if no block of the program ends with a label. -/
theorem Program.labelsLead_iff {leads : C.Token → Bool} {program : Program}
    (h : C.LeadsOn leads program.mentions) (hwell : ∀ t ∈ program.terminals, t.WellFormed) :
    C.LabelsLead leads (C.lineTokens (codeLines program.text)) ↔
      ∀ block ∈ program.blocks, Statement.endsWithLabel block = false := by
  have hbody : C.lineTokens program.bodyLines = Statement.listTokenLines program.statements :=
    Statement.listLineTokens_lines _ (Program.wellFormed_statements hwell)
  have hfooter : C.lineTokens footerLines =
      [[.name "return", .number "0", .punctuator ";"], [.punctuator "\x7d"]] := by
    decide +kernel
  have hlines : C.lineTokens (codeLines program.text) = C.lineTokens program.headerLines ++
      (Statement.listTokenLines program.statements ++ C.lineTokens footerLines) := by
    rw [codeLines_text hwell, ← hbody, List.append_assoc]
    simp [C.lineTokens]
  have hreturn : C.Leads leads (C.lineTokens footerLines) := by
    have hfirst := h.words "return" (by decide)
    simpa [hfooter, C.Leads, C.isLabel] using hfirst
  have hnone : C.LabelsLead leads (C.lineTokens footerLines) := by
    rw [hfooter, C.labelsLead_cons_iff, C.labelsLead_cons_iff]
    exact ⟨nofun, nofun, C.labelsLead_nil⟩
  rw [hlines, C.labelsLead_append_iff (program.isLabel_headerLines hwell),
    Statement.list_labelsLead_append_iff _ h]
  exact ⟨fun hall => hall.2.1, fun hblocks => ⟨fun _ => hreturn, hblocks, hnone⟩⟩

/-- Behind every label of a C text, and other labels behind it, there is a line that does not close
a block, exactly if no block of the source ends with a label. If no variable has the name of a
reserved word, the same holds of a line that begins a statement. -/
theorem labels_lead_iff {source code : String} (h : compile source = .ok code) :
    ∃ program : Program, sourceTerminals source = program.terminals ∧
      (C.LabelsLead C.isInside (C.lineTokens (codeLines code)) ↔
        ∀ block ∈ program.blocks, Statement.endsWithLabel block = false) ∧
      ((∀ word ∈ targets (sourceTerminals source), word ∉ C.keywords) →
        (C.LabelsLead C.beginsStatement (C.lineTokens (codeLines code)) ↔
          ∀ block ∈ program.blocks, Statement.endsWithLabel block = false)) := by
  obtain ⟨program, hprogram, hwell, -, rfl⟩ := exists_program_of_compile h
  refine ⟨program, hprogram, Program.labelsLead_iff ?_ hwell, fun hfree =>
    Program.labelsLead_iff ?_ hwell⟩
  · exact ⟨by decide, fun _ _ => rfl, rfl⟩
  · refine ⟨by decide, fun name hname => ?_, rfl⟩
    rw [hprogram, program.targets_terminals] at hfree
    have hword : name ∉ C.keywords := hfree name (List.mem_filterMap.mpr ⟨_, hname, rfl⟩)
    simp [C.beginsStatement, hword]

/-- A label inside a block has a statement behind it if the block goes on, and the last label of a
program has one too. -/
theorem labels_lead_iff_inside :
    ∃ code, compile "IF 1 == 1 THEN\nLABEL a\nPRINT 1\nENDIF\nLABEL b\n" = .ok code ∧
      codeLines code = ["#include <stdio.h>", "int main(void)\x7b", "if(1 == 1)\x7b", "a:",
        "printf(\"%.2f\\n\", (float)(1));", "\x7d", "b:", "return 0;", "\x7d"] ∧
      C.LabelsLead C.isInside (C.lineTokens (codeLines code)) ∧
      C.LabelsLead C.beginsStatement (C.lineTokens (codeLines code)) := by
  have h : compile "IF 1 == 1 THEN\nLABEL a\nPRINT 1\nENDIF\nLABEL b\n" =
      .ok ("#include <stdio.h>\nint main(void)\x7b\nif(1 == 1)\x7b\na:\n" ++
        "printf(\"%.2f\\n\", (float)(1));\n\x7d\nb:\nreturn 0;\n\x7d\n") := by
    decide +kernel
  have hterminals : sourceTerminals "IF 1 == 1 THEN\nLABEL a\nPRINT 1\nENDIF\nLABEL b\n" =
      Program.terminals ⟨0, [.guarded .branch ⟨⟨⟨⟨none, .number "1"⟩, []⟩, []⟩, ⟨.equal, rfl,
        ⟨⟨⟨none, .number "1"⟩, []⟩, []⟩⟩, []⟩ 0 [.label "a" 0,
          .printValue ⟨⟨⟨none, .number "1"⟩, []⟩, []⟩ 0] 0, .label "b" 0]⟩ := by
    decide +kernel
  obtain ⟨program, hprogram, hinside, hbegins⟩ := labels_lead_iff h
  obtain rfl := Program.terminals_injective (hprogram.symm.trans hterminals)
  refine ⟨_, h, by decide +kernel, hinside.mpr ?_, (hbegins (by decide +kernel)).mpr ?_⟩
  all_goals exact List.forall_mem_cons.mpr ⟨rfl, nofun⟩

/-- A label at the end of a block stands in front of the end of the block. -/
theorem labels_lead_fails_at_end :
    ∃ code, compile "IF 1 == 1 THEN\nLABEL a\nENDIF\n" = .ok code ∧
      codeLines code = ["#include <stdio.h>", "int main(void)\x7b", "if(1 == 1)\x7b", "a:", "\x7d",
        "return 0;", "\x7d"] ∧
      ¬ C.LabelsLead C.isInside (C.lineTokens (codeLines code)) ∧
      ¬ C.LabelsLead C.beginsStatement (C.lineTokens (codeLines code)) := by
  refine ⟨"#include <stdio.h>\nint main(void)\x7b\nif(1 == 1)\x7b\na:\n\x7d\n" ++
    "return 0;\n\x7d\n", ?_⟩
  decide +kernel

end BasicCompiler
