import BasicCompiler.Proofs.Generated.Declarations
import BasicCompiler.Proofs.Lexing.Joining

/-!
# Programs put together

A program can be continued by another one: the blank lines with which the second begins become
line ends behind the last statement of the first. Read `compile_append` first: the C text of two
sources put together has the declarations of the first and the new ones of the second, and then the
statements of both.
-/

namespace BasicCompiler

/-! ## More line ends -/

namespace Statement

/-- The statement with more line ends behind it. -/
def spaced (more : Nat) : Statement → Statement
  | printText text blank => printText text (blank + more)
  | printValue value blank => printValue value (blank + more)
  | guarded guard condition opening body blank =>
    guarded guard condition opening body (blank + more)
  | label name blank => label name (blank + more)
  | jump name blank => jump name (blank + more)
  | assignment name value blank => assignment name value (blank + more)
  | input name blank => input name (blank + more)

/-- A statement and further ones with more line ends behind the last of them. -/
def listSpaced (more : Nat) (first : Statement) : List Statement → List Statement
  | [] => [first.spaced more]
  | second :: others => first :: listSpaced more second others

/-- The additional line ends stand behind all other terminals. -/
theorem terminals_spaced (more : Nat) (statement : Statement) :
    (statement.spaced more).terminals =
      statement.terminals ++ List.replicate more .lineEnd := by
  have hends : ∀ blank, lineEnds (blank + more) =
      lineEnds blank ++ List.replicate more .lineEnd := by
    intro blank
    rw [lineEnds, lineEnds, List.replicate_append_replicate, Nat.add_right_comm]
  cases statement <;> simp [spaced, terminals, hends]

/-- Line ends mention no names. -/
theorem mentions_spaced (more : Nat) (statement : Statement) :
    (statement.spaced more).mentions = statement.mentions ++ [] := by
  cases statement <;> exact (List.append_nil _).symm

/-- Line ends are not translated. -/
theorem lines_spaced (more : Nat) (statement : Statement) :
    (statement.spaced more).lines = statement.lines ++ [] := by
  cases statement <;> exact (List.append_nil _).symm

/-- What the line ends add to a statement they add behind all statements. -/
theorem flatMap_listSpaced {α : Type} {f : Statement → List α} {more : Nat} {behind : List α}
    (h : ∀ statement, f (spaced more statement) = f statement ++ behind) (first : Statement)
    (others : List Statement) :
    (listSpaced more first others).flatMap f = (first :: others).flatMap f ++ behind := by
  induction others generalizing first with
  | nil => simp [listSpaced, h]
  | cons second others ih =>
    rw [listSpaced, List.flatMap_cons, ih, ← List.append_assoc]
    rfl

/-- The terminals of statements in a row, statement by statement. -/
theorem listTerminals_eq_flatMap (statements : List Statement) :
    listTerminals statements = statements.flatMap terminals := by
  induction statements with
  | nil => rfl
  | cons statement statements ih => rw [listTerminals, ih, List.flatMap_cons]

/-- The names of statements in a row, statement by statement. -/
theorem listMentions_eq_flatMap (statements : List Statement) :
    listMentions statements = statements.flatMap mentions := by
  induction statements with
  | nil => rfl
  | cons statement statements ih => rw [listMentions, ih, List.flatMap_cons]

/-- The lines of statements in a row, statement by statement. -/
theorem listLines_eq_flatMap (statements : List Statement) :
    listLines statements = statements.flatMap lines := by
  induction statements with
  | nil => rfl
  | cons statement statements ih => rw [listLines, ih, List.flatMap_cons]

end Statement

/-! ## Declarations that are new -/

section Including

variable (names : List String)

/-- A name is included behind some names as it is included among the new ones. -/
theorem including_append_filter (seen : List String) (name : String) :
    including (names ++ seen.filter (· ∉ names)) name =
      names ++ (including seen name).filter (· ∉ names) := by
  unfold including
  by_cases hold : name ∈ names
  · by_cases hseen : name ∈ seen <;> simp [hold, hseen]
  · by_cases hseen : name ∈ seen <;> simp [hold, hseen]

/-- What is included behind some names are those that are new. -/
theorem foldl_including_append (more : List String) :
    more.foldl including names = names ++ (more.foldl including []).filter (· ∉ names) := by
  -- with the names seen so far in the place of the empty list
  suffices h : ∀ seen : List String,
      more.foldl including (names ++ seen.filter (· ∉ names)) =
        names ++ (more.foldl including seen).filter (· ∉ names) by
    simpa using h []
  induction more with
  | nil => exact fun _ => rfl
  | cons name more ih =>
    intro seen
    rw [List.foldl_cons, including_append_filter, ih]
    rfl

end Including

/-- Different variables have different declarations. -/
theorem Fragment.declaration_inj {name other : String} :
    declaration name = declaration other ↔ name = other := by
  simp [declaration]

/-- The declarations that are new are those of the names that are new. -/
theorem map_declaration_filter (names others : List String) :
    (others.filter (· ∉ names)).map Fragment.declaration =
      (others.map Fragment.declaration).filter (· ∉ names.map Fragment.declaration) := by
  have hnew : ∀ name, Fragment.declaration name ∈ names.map Fragment.declaration ↔
      name ∈ names := by
    intro name
    simp [Fragment.declaration_inj]
  rw [List.filter_map]
  simp only [Function.comp_def, hnew]

/-! ## One program behind another -/

namespace Program

/-- The second program behind the first. -/
def followedBy (first second : Program) : Program :=
  match first.statements with
  | [] => ⟨first.blank + second.blank, second.statements⟩
  | statement :: statements =>
    ⟨first.blank, Statement.listSpaced second.blank statement statements ++ second.statements⟩

variable {first second : Program}

/-- The second program takes the place of the end of the input. -/
theorem terminals_followedBy {terminals terminals' : List Terminal}
    (hfirst : terminals ++ [.endOfInput] = first.terminals)
    (hsecond : terminals' ++ [.endOfInput] = second.terminals) :
    terminals ++ terminals' ++ [.endOfInput] = (first.followedBy second).terminals := by
  have hfront : terminals =
      List.replicate first.blank .lineEnd ++ Statement.listTerminals first.statements :=
    List.append_cancel_right hfirst
  rw [List.append_assoc, hsecond, hfront, followedBy]
  cases first.statements with
  | nil => simp [Program.terminals, Statement.listTerminals, ← List.replicate_append_replicate]
  | cons statement statements =>
    have hspaced := Statement.flatMap_listSpaced (Statement.terminals_spaced second.blank) statement
      statements
    simp [Program.terminals, Statement.listTerminals_eq_flatMap, hspaced]

/-- The names of the second program behind those of the first. -/
theorem mentions_followedBy :
    (first.followedBy second).mentions = first.mentions ++ second.mentions := by
  unfold followedBy mentions
  cases first.statements with
  | nil => rfl
  | cons statement statements =>
    have hspaced := Statement.flatMap_listSpaced (Statement.mentions_spaced second.blank) statement
      statements
    simp [Statement.listMentions_eq_flatMap, hspaced]

/-- The lines of the second program behind those of the first. -/
theorem bodyLines_followedBy :
    (first.followedBy second).bodyLines = first.bodyLines ++ second.bodyLines := by
  unfold followedBy bodyLines
  cases first.statements with
  | nil => rfl
  | cons statement statements =>
    have hspaced := Statement.flatMap_listSpaced (Statement.lines_spaced second.blank) statement
      statements
    simp [Statement.listLines_eq_flatMap, hspaced]

/-- The variables of the first program, then those of the second that are new. -/
theorem variableNames_followedBy :
    (first.followedBy second).variableNames =
      first.variableNames ++ second.variableNames.filter (· ∉ first.variableNames) := by
  have hassigned : assignedNames (first.mentions ++ second.mentions) =
      assignedNames first.mentions ++ assignedNames second.mentions :=
    List.filterMap_append
  rw [variableNames, mentions_followedBy, hassigned, List.foldl_append, foldl_including_append]
  rfl

/-- Two programs that follow the rules for names, and have no label in common, follow them one
behind the other. -/
theorem Scoped.followedBy (hfirst : first.Scoped) (hsecond : second.Scoped)
    (hlabels : ∀ name ∈ labelNames first.mentions, name ∉ labelNames second.mentions) :
    (first.followedBy second).Scoped := by
  refine ⟨fun before name after hsplit => ?_, ?_, fun name hjump => ?_⟩
  · -- the variable is read in the one program or in the other
    rw [mentions_followedBy] at hsplit
    rcases List.append_eq_append_iff.mp hsplit with ⟨gap, rfl, hgap⟩ | ⟨gap, hgap, hbehind⟩
    · exact List.mem_append_right _ (hsecond.reads_assigned gap name after hgap)
    · cases gap with
      | nil =>
        have hhead : second.mentions = [] ++ .read name :: after := hbehind.symm
        cases hsecond.reads_assigned [] name after hhead
      | cons mention gap =>
        obtain ⟨rfl, -⟩ := List.cons.inj hbehind
        exact hfirst.reads_assigned before name gap hgap
  · rw [mentions_followedBy, labelNames_append]
    refine List.nodup_append.mpr ⟨hfirst.labels_nodup, hsecond.labels_nodup, ?_⟩
    intro name hname other hother hsame
    exact hlabels name hname (hsame ▸ hother)
  · rw [mentions_followedBy] at hjump ⊢
    rcases List.mem_append.mp hjump with hjump | hjump
    · exact List.mem_append_left _ (hfirst.jumps_labelled name hjump)
    · exact List.mem_append_right _ (hsecond.jumps_labelled name hjump)

/-- The C text of the second program behind the first. -/
theorem text_followedBy (hfirst : ∀ t ∈ first.terminals, t.WellFormed)
    (hsecond : ∀ t ∈ second.terminals, t.WellFormed) :
    (first.followedBy second).text =
      unlines (Fragment.preamble ++ declarationLines first.text ++
        (declarationLines second.text).filter (· ∉ declarationLines first.text) ++
        statementLines first.text ++ statementLines second.text ++ Fragment.epilogue) := by
  rw [declarationLines_text hfirst, declarationLines_text hsecond, statementLines_text hfirst,
    statementLines_text hsecond, ← map_declaration_filter, text, headerLines,
    bodyLines_followedBy, variableNames_followedBy, List.map_append]
  simp only [List.append_assoc]
  rfl

end Program

/-! ## One source behind another -/

/-- A source that is empty or ends with a line feed. -/
theorem EndsLine.of_source {source : String}
    (h : source = "" ∨ source.toList.getLast? = some '\n') : EndsLine source.toList := by
  intro c hc
  rcases h with rfl | h
  · cases hc
  · exact (Option.some.inj (h.symm.trans hc)).symm

/-- Two sources, the first of which is empty or ends with a line feed, are compiled together if
they are compiled apart and have no label in common. The C text has the declarations of the first
and those of the second that are new, then the statements of the first and those of the second. -/
theorem compile_append {source source' code code' : String} (h : compile source = .ok code)
    (h' : compile source' = .ok code')
    (hends : source = "" ∨ source.toList.getLast? = some '\n')
    (hlabels : ∀ name ∈ labels (sourceTerminals source), name ∉ labels (sourceTerminals source')) :
    compile (source ++ source') =
      .ok (unlines (Fragment.preamble ++ declarationLines code ++
        (declarationLines code').filter (· ∉ declarationLines code) ++
        statementLines code ++ statementLines code' ++ Fragment.epilogue)) := by
  obtain ⟨terminals, program, hscan, hterminals, hscoped, rfl⟩ := compile_eq_ok_iff_scan.mp h
  obtain ⟨terminals', program', hscan', hterminals', hscoped', rfl⟩ :=
    compile_eq_ok_iff_scan.mp h'
  have hwell := wellFormed_of_scan hscan
  have hwell' := wellFormed_of_scan hscan'
  rw [hterminals] at hwell
  rw [hterminals'] at hwell'
  have hdisjoint : ∀ name ∈ labelNames program.mentions,
      name ∉ labelNames program'.mentions := by
    rw [← program.labels_terminals, ← program'.labels_terminals, ← hterminals, ← hterminals',
      ← sourceTerminals_of_scan hscan, ← sourceTerminals_of_scan hscan']
    exact hlabels
  have hjoined : scan (source ++ source').toList = (terminals ++ terminals').map .ok := by
    rw [String.toList_append, scan_append (EndsLine.of_source hends), hscan, hscan',
      List.map_append]
  rw [← Program.text_followedBy hwell hwell']
  exact compile_eq_ok_iff_scan.mpr ⟨_, _, hjoined,
    Program.terminals_followedBy hterminals hterminals', hscoped.followedBy hscoped' hdisjoint,
    rfl⟩

/-- Two programs that share a variable; the second begins with a blank line and jumps back. -/
theorem compile_append_labelled :
    compile ("LET x = 1\n" ++ "\nINPUT y\nLABEL a\nLET x = y\nGOTO a\n") =
      .ok (unlines (Fragment.preamble ++ ["float x;"] ++ ["float y;"] ++ ["x = 1;"] ++
        ["if(0 == scanf(\"%f\", &y)) \x7b", "y = 0;", "scanf(\"%*s\");", "\x7d", "a:", "x = y;",
          "goto a;"] ++ Fragment.epilogue)) := by
  have h : compile "LET x = 1\n" =
      .ok "#include <stdio.h>\nint main(void)\x7b\nfloat x;\nx = 1;\nreturn 0;\n\x7d\n" := by
    decide +kernel
  have h' : compile "\nINPUT y\nLABEL a\nLET x = y\nGOTO a\n" =
      .ok ("#include <stdio.h>\nint main(void)\x7b\nfloat y;\nfloat x;\n" ++
        "if(0 == scanf(\"%f\", &y)) \x7b\ny = 0;\nscanf(\"%*s\");\n\x7d\n" ++
        "a:\nx = y;\ngoto a;\nreturn 0;\n\x7d\n") := by
    decide +kernel
  exact (compile_append h h' (.inr (by decide)) (by decide +kernel)).trans (by decide +kernel)

end BasicCompiler
