import Mathlib.Logic.Relation
import BasicCompiler.Proofs.Generated.Parts
import BasicCompiler.Proofs.Layout.Gaps

/-!
# The layout of a source is not translated

Line ends in a row stand for one, so a syntax tree can be given one more of them wherever it has
one, and its names and its C lines stay as they are. Read `compile_relaid` first: whatever is done
to the layout of a source that is compiled, its C text stays the same.
-/

namespace BasicCompiler

/-! ## One line end more -/

namespace Doubled

variable {first second whole : List Terminal}

/-- The line end is added in the one stretch or in the other. -/
theorem of_append (h : Doubled (first ++ second) whole) :
    (∃ first', Doubled first first' ∧ whole = first' ++ second) ∨
      ∃ second', Doubled second second' ∧ whole = first ++ second' := by
  generalize hterminals : first ++ second = terminals at h
  obtain ⟨front, back⟩ := h
  rcases List.append_eq_append_iff.mp hterminals with ⟨gap, rfl, rfl⟩ | ⟨gap, rfl, hgap⟩
  · exact .inr ⟨_, .intro gap back, by simp⟩
  · cases gap with
    | nil =>
      obtain rfl : .lineEnd :: back = second := hgap
      exact .inr ⟨_, .intro [] back, by simp⟩
    | cons terminal gap =>
      obtain ⟨rfl, rfl⟩ := List.cons.inj hgap
      exact .inl ⟨_, .intro front gap, by simp⟩

/-- Where there is no line end, none can be added behind it. -/
theorem exists_lineEnd (h : Doubled first whole) : ∃ t ∈ first, t.kind = .lineEnd := by
  obtain ⟨front, back⟩ := h
  exact ⟨.lineEnd, by simp, rfl⟩

/-- A line end more among line ends. -/
theorem of_lineEnds {blank : Nat} (h : Doubled (lineEnds blank) whole) :
    whole = lineEnds (blank + 1) := by
  generalize hterminals : lineEnds blank = terminals at h
  obtain ⟨front, back⟩ := h
  have hlength := congrArg List.length hterminals
  have hall : ∀ t ∈ front ++ .lineEnd :: back, t = .lineEnd := by
    intro t ht
    rw [← hterminals] at ht
    exact List.eq_of_mem_replicate ht
  refine List.eq_replicate_iff.mpr ⟨?_, fun t ht => hall t (by simpa using ht)⟩
  simp only [lineEnds, List.length_replicate, List.length_append, List.length_cons] at hlength ⊢
  omega

/-- A line end more behind terminals without one. -/
theorem of_line (words : List Terminal) {blank : Nat} (h : Doubled (words ++ lineEnds blank) whole)
    (hwords : ∀ t ∈ words, t.kind ≠ .lineEnd) : whole = words ++ lineEnds (blank + 1) := by
  rcases h.of_append with ⟨_, hdoubled, -⟩ | ⟨_, hdoubled, rfl⟩
  · obtain ⟨t, ht, hkind⟩ := hdoubled.exists_lineEnd
    exact absurd hkind (hwords t ht)
  · rw [hdoubled.of_lineEnds]

end Doubled

mutual

/-- With one line end more, a statement is another statement with the same names and C lines. -/
theorem Statement.exists_doubled (statement : Statement)
    (h : ∀ t ∈ statement.terminals, t.WellFormed) {terminals' : List Terminal}
    (hdoubled : Doubled statement.terminals terminals') :
    ∃ statement' : Statement, statement'.terminals = terminals' ∧
      statement'.mentions = statement.mentions ∧ statement'.lines = statement.lines := by
  cases statement with
  | printText text blank =>
    have hline := Doubled.of_line [.keyword .PRINT, .quoted text] hdoubled (by simp)
    exact ⟨.printText text (blank + 1), hline.symm, rfl, rfl⟩
  | printValue value blank =>
    have hvalue := Expression.spells fun t ht =>
      h t (List.mem_cons_of_mem _ (List.mem_append_left _ ht))
    have hline := Doubled.of_line (.keyword .PRINT :: value.terminals) hdoubled
      (List.forall_mem_cons.mpr ⟨by simp, hvalue.not_lineEnd⟩)
    exact ⟨.printValue value (blank + 1), hline.symm, rfl, rfl⟩
  | guarded guard condition opening body blank =>
    have hcondition := @Condition.spells condition fun t ht => h t (by simp [terminals, ht])
    have hwell : ∀ t ∈ listTerminals body, t.WellFormed := fun t ht => h t (by simp [terminals, ht])
    have hopening : ∀ t ∈ .keyword guard.leading :: condition.terminals ++ [.keyword guard.opening],
        t.kind ≠ .lineEnd := by
      have hothers := hcondition.not_lineEnd
      simpa [or_imp, forall_and] using hothers
    -- the line end is behind the condition, among the statements, or behind the closing word
    have hparts : (Statement.guarded guard condition opening body blank).terminals =
        (.keyword guard.leading :: condition.terminals ++ [.keyword guard.opening] ++
          lineEnds opening) ++ (listTerminals body ++
          ([.keyword guard.closing] ++ lineEnds blank)) := by
      simp [terminals]
    rw [hparts] at hdoubled
    rcases hdoubled.of_append with ⟨_, hopened, rfl⟩ | ⟨_, hothers, rfl⟩
    · refine ⟨.guarded guard condition (opening + 1) body blank, ?_, rfl, rfl⟩
      rw [Doubled.of_line _ hopened hopening]
      simp [terminals]
    · rcases hothers.of_append with ⟨_, hbody, rfl⟩ | ⟨_, hclosed, rfl⟩
      · obtain ⟨body', rfl, hmentions, hlines⟩ := list_exists_doubled body hwell hbody
        refine ⟨.guarded guard condition opening body' blank, ?_, ?_, ?_⟩
        · simp [terminals]
        · simp [mentions, hmentions]
        · simp [lines, hlines]
      · refine ⟨.guarded guard condition opening body (blank + 1), ?_, rfl, rfl⟩
        rw [Doubled.of_line _ hclosed (by simp)]
        simp [terminals]
  | label name blank =>
    have hline := Doubled.of_line [.keyword .LABEL, .name name] hdoubled (by simp)
    exact ⟨.label name (blank + 1), hline.symm, rfl, rfl⟩
  | jump name blank =>
    have hline := Doubled.of_line [.keyword .GOTO, .name name] hdoubled (by simp)
    exact ⟨.jump name (blank + 1), hline.symm, rfl, rfl⟩
  | assignment name value blank =>
    have hvalue := @Expression.spells value fun t ht => h t (by simp [terminals, ht])
    have hline := Doubled.of_line
      (.keyword .LET :: .name name :: .operator .assign :: value.terminals) hdoubled
      (by simpa using hvalue.not_lineEnd)
    exact ⟨.assignment name value (blank + 1), hline.symm, rfl, rfl⟩
  | input name blank =>
    have hline := Doubled.of_line [.keyword .INPUT, .name name] hdoubled (by simp)
    exact ⟨.input name (blank + 1), hline.symm, rfl, rfl⟩

/-- With one line end more, statements in a row are others with the same names and C lines. -/
theorem Statement.list_exists_doubled (statements : List Statement)
    (h : ∀ t ∈ listTerminals statements, t.WellFormed) {terminals' : List Terminal}
    (hdoubled : Doubled (listTerminals statements) terminals') :
    ∃ statements' : List Statement, listTerminals statements' = terminals' ∧
      listMentions statements' = listMentions statements ∧
      listLines statements' = listLines statements := by
  cases statements with
  | nil =>
    obtain ⟨t, ht, -⟩ := hdoubled.exists_lineEnd
    cases ht
  | cons statement statements =>
    rw [listTerminals] at hdoubled
    rcases hdoubled.of_append with ⟨_, hfirst, rfl⟩ | ⟨_, hothers, rfl⟩
    · obtain ⟨statement', rfl, hmentions, hlines⟩ :=
        statement.exists_doubled (fun t ht => h t (List.mem_append_left _ ht)) hfirst
      refine ⟨statement' :: statements, rfl, ?_, ?_⟩
      · rw [listMentions, hmentions, listMentions]
      · rw [listLines, hlines, listLines]
    · obtain ⟨statements', rfl, hmentions, hlines⟩ :=
        list_exists_doubled statements (fun t ht => h t (List.mem_append_right _ ht)) hothers
      refine ⟨statement :: statements', rfl, ?_, ?_⟩
      · rw [listMentions, hmentions, listMentions]
      · rw [listLines, hlines, listLines]

end

namespace Program

variable {program : Program} {terminals' : List Terminal}

/-- With one line end more, a program is another program with the same names and C lines. -/
theorem exists_doubled (h : ∀ t ∈ program.terminals, t.WellFormed)
    (hdoubled : Doubled program.terminals terminals') :
    ∃ program' : Program, program'.terminals = terminals' ∧
      program'.mentions = program.mentions ∧ program'.bodyLines = program.bodyLines := by
  obtain ⟨blank, statements⟩ := program
  have hparts : (Program.mk blank statements).terminals =
      List.replicate blank .lineEnd ++ (Statement.listTerminals statements ++ [.endOfInput]) :=
    List.append_assoc _ _ _
  rw [hparts] at hdoubled
  rcases hdoubled.of_append with ⟨_, hblank, rfl⟩ | ⟨_, hothers, rfl⟩
  · cases blank with
    | zero =>
      obtain ⟨t, ht, -⟩ := hblank.exists_lineEnd
      cases ht
    | succ blank =>
      refine ⟨⟨blank + 2, statements⟩, ?_, rfl, rfl⟩
      rw [hblank.of_lineEnds]
      exact List.append_assoc _ _ _
  · rcases hothers.of_append with ⟨_, hstatements, rfl⟩ | ⟨_, hend, -⟩
    · obtain ⟨statements', rfl, hmentions, hlines⟩ :=
        Statement.list_exists_doubled statements (wellFormed_statements h) hstatements
      exact ⟨⟨blank, statements'⟩, List.append_assoc _ _ _, hmentions, hlines⟩
    · obtain ⟨t, ht, hkind⟩ := hend.exists_lineEnd
      rw [List.mem_singleton.mp ht] at hkind
      cases hkind

/-- What a program is translated into depends on its names and on the lines of its statements. -/
theorem text_congr {program' : Program} (hmentions : program'.mentions = program.mentions)
    (hlines : program'.bodyLines = program.bodyLines) : program'.text = program.text := by
  rw [text, text, headerLines, headerLines, variableNames, variableNames, hmentions, hlines]

/-- Whether a program follows the rules for names depends on its names. -/
theorem Scoped.congr {program' : Program} (h : program.Scoped)
    (hmentions : program'.mentions = program.mentions) : program'.Scoped := by
  obtain ⟨hreads, hnodup, hjumps⟩ := h
  rw [← hmentions] at hreads hnodup hjumps
  exact ⟨hreads, hnodup, hjumps⟩

end Program

/-! ## Whole sources -/

/-- A line end more behind another one changes nothing in the translation. -/
theorem compile_doubled {source source' code : String} {terminals terminals' : List Terminal}
    (h : compile source = .ok code) (hscan : scan source.toList = terminals.map .ok)
    (hscan' : scan source'.toList = terminals'.map .ok) (hdoubled : Doubled terminals terminals') :
    compile source' = .ok code := by
  obtain ⟨others, program, hothers, hterminals, hscoped, rfl⟩ := compile_eq_ok_iff_scan.mp h
  obtain rfl : others = terminals :=
    (List.map_inj_right fun _ _ => Except.ok.inj).mp (hothers.symm.trans hscan)
  have hwell := wellFormed_of_scan hscan
  rw [hterminals] at hwell
  have hwhole : Doubled program.terminals (terminals' ++ [.endOfInput]) := by
    rw [← hterminals]
    obtain ⟨front, back⟩ := hdoubled
    simpa using Doubled.intro front (back ++ [.endOfInput])
  obtain ⟨program', hterminals', hmentions, hlines⟩ := Program.exists_doubled hwell hwhole
  exact compile_eq_ok_iff_scan.mpr ⟨terminals', program', hscan', hterminals'.symm,
    hscoped.congr hmentions, (Program.text_congr hmentions hlines).symm⟩

/-- A line end in front of all terminals changes nothing in the translation. -/
theorem compile_blankLine {source source' code : String} {terminals : List Terminal}
    (h : compile source = .ok code) (hscan : scan source.toList = terminals.map .ok)
    (hscan' : scan source'.toList = (.lineEnd :: terminals).map .ok) :
    compile source' = .ok code := by
  obtain ⟨others, ⟨blank, statements⟩, hothers, hterminals, hscoped, rfl⟩ :=
    compile_eq_ok_iff_scan.mp h
  obtain rfl : others = terminals :=
    (List.map_inj_right fun _ _ => Except.ok.inj).mp (hothers.symm.trans hscan)
  refine compile_eq_ok_iff_scan.mpr ⟨_, ⟨blank + 1, statements⟩, hscan', ?_, hscoped.congr rfl, rfl⟩
  rw [List.cons_append, hterminals]
  simp [Program.terminals, List.replicate_succ]

/-- The same terminals are translated into the same text. -/
theorem compile_same {source source' code : String} {terminals : List Terminal}
    (h : compile source = .ok code) (hscan : scan source.toList = terminals.map .ok)
    (hscan' : scan source'.toList = terminals.map .ok) : compile source' = .ok code := by
  rw [← hscan] at hscan'
  rw [compile_eq_ok_iff_scan, hscan']
  exact compile_eq_ok_iff_scan.mp h

/-- One edit of the layout changes nothing in the translation. -/
theorem compile_of_relaid {source source' code : String} (h : compile source = .ok code)
    (hedit : Relaid source.toList source'.toList) : compile source' = .ok code := by
  obtain ⟨terminals, _, hscan, -⟩ := compile_eq_ok_iff_scan.mp h
  obtain ⟨terminals', hscan', rfl | hdoubled | rfl⟩ := hedit.scan hscan
  · exact compile_same h hscan hscan'
  · exact compile_doubled h hscan hscan' hdoubled
  · exact compile_blankLine h hscan hscan'

/-- Layout is not translated. Let a source be compiled, and let another one be made from it by any
number of edits, each of which inserts blanks in a gap between tokens, a comment in a gap at the
end of a line or of the source, a line feed beside a line feed, or a line feed at the very
beginning. Then the other source is compiled into the same text; and so is the source with a
carriage return in front of every line feed. -/
theorem compile_relaid {source source' code : String} (h : compile source = .ok code)
    (hedits : Relation.ReflTransGen Relaid source.toList source'.toList) :
    compile source' = .ok code ∧
      compile (String.ofList (withReturns source.toList)) = .ok code := by
  constructor
  · suffices hchars : ∀ cs, Relation.ReflTransGen Relaid source.toList cs →
        compile (String.ofList cs) = .ok code by
      have hsource := hchars _ hedits
      rwa [String.ofList_toList] at hsource
    intro cs hcs
    induction hcs with
    | refl => rwa [String.ofList_toList]
    | @tail middle cs _ hedit ih =>
      refine compile_of_relaid ih ?_
      rwa [String.toList_ofList, String.toList_ofList]
  · obtain ⟨terminals, _, hscan, -⟩ := compile_eq_ok_iff_scan.mp h
    refine compile_same h hscan ?_
    rw [String.toList_ofList]
    exact scan_withReturns hscan

/-- A program with a blank line in front, a tab between two tokens, a comment behind its statement
and a blank line behind that. -/
theorem compile_relaid_commented :
    let code := "#include <stdio.h>\nint main(void)\x7b\n" ++
      "printf(\"%.2f\\n\", (float)(1));\nreturn 0;\n\x7d\n"
    compile "PRINT 1\n" = .ok code ∧ compile "\nPRINT \t1#one\n\n" = .ok code ∧
      compile "PRINT 1\r\n" = .ok code := by
  intro code
  have h : compile "PRINT 1\n" = .ok code := by decide +kernel
  have hline : behindTrivia "\nPRINT 1\n".toList = '\n' :: "PRINT 1\n".toList := rfl
  have hword : behindTrivia "PRINT 1\n".toList = 'P' :: "RINT 1\n".toList := rfl
  have hspace : trivia " 1\n".toList = " ".toList ++ [] := rfl
  have hgap : Gap "\nPRINT 1\n".toList "\nPRINT ".toList [] "1\n".toList :=
    .next hline (.next hword (.first hspace))
  have hline' : behindTrivia "\nPRINT \t1\n".toList = '\n' :: "PRINT \t1\n".toList := rfl
  have hword' : behindTrivia "PRINT \t1\n".toList = 'P' :: "RINT \t1\n".toList := rfl
  have hnumber : behindTrivia " \t1\n".toList = '1' :: "\n".toList := rfl
  have hnone : trivia "\n".toList = [] ++ [] := rfl
  have hgap' : Gap "\nPRINT \t1\n".toList "\nPRINT \t1".toList [] "\n".toList :=
    .next hline' (.next hword' (.next hnumber (.first hnone)))
  have hfront : Relaid "PRINT 1\n".toList "\nPRINT 1\n".toList := .blankLine _
  have htab : Relaid "\nPRINT 1\n".toList "\nPRINT \t1\n".toList :=
    .blanks hgap (List.all_eq_true.mp rfl : ∀ c ∈ ['\t'], isBlank c = true)
  have hends : EndsComment "\n".toList := fun c hc => (Option.some.inj hc).symm
  have hcomment : Relaid "\nPRINT \t1\n".toList "\nPRINT \t1#one\n".toList :=
    .comment hgap' hends (by decide : '\n' ∉ "one".toList)
  have hbehind : Relaid "\nPRINT \t1#one\n".toList "\nPRINT \t1#one\n\n".toList :=
    .lineFeed "\nPRINT \t1#one".toList []
  have hreturns : String.ofList (withReturns "PRINT 1\n".toList) = "PRINT 1\r\n" := by
    decide +kernel
  have hedits := Relation.ReflTransGen.single hfront
  obtain ⟨hrelaid, hreturned⟩ := compile_relaid h (((hedits.tail htab).tail hcomment).tail hbehind)
  rw [hreturns] at hreturned
  exact ⟨h, hrelaid, hreturned⟩

end BasicCompiler
