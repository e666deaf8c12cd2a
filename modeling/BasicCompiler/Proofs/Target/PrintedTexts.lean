import Mathlib.Data.List.TakeWhile
import BasicCompiler.Proofs.Generated.Parts
import BasicCompiler.Proofs.Target.LineTokens

/-!
# Printed texts

What C makes of a line that prints a quoted text. A string literal stands for an array of characters
with a null character at its end (`C.array?`), and `printf` takes the array for a format that goes
as far as the first null character (`C.formatted?`). Read `printed_text_iff` first: a text comes out
as it stands in the source, with a line feed behind it, unless it holds a null character.
-/

namespace BasicCompiler

namespace C

/-! ## Literals and formats -/

/-- The character for which one behind a backslash stands. Escapes by a number are left out. -/
def escaped? : Char → Option Char
  | '\'' => some '\''
  | '"' => some '"'
  | '?' => some '?'
  | '\\' => some '\\'
  | 'a' => some '\x07'
  | 'b' => some '\x08'
  | 'f' => some '\x0c'
  | 'n' => some '\n'
  | 'r' => some '\r'
  | 't' => some '\t'
  | 'v' => some '\x0b'
  | _ => none

/-- The characters for which a string literal stands, read behind its opening quote. The closing
quote is the only one that is not escaped, and nothing stands behind it. -/
def literalCharacters? : List Char → Option (List Char)
  | [] => none
  | ['"'] => some []
  | '\\' :: c :: cs =>
    (escaped? c).bind fun d => (literalCharacters? cs).map fun characters => d :: characters
  | c :: cs =>
    if c = '"' ∨ c = '\\' ∨ c = '\n' then none
    else (literalCharacters? cs).map fun characters => c :: characters

/-- The array for which a string literal stands: its characters and a null character. -/
def array? (literal : String) : Option (List Char) :=
  match literal.toList with
  | '"' :: cs => (literalCharacters? cs).map fun characters => characters ++ ['\x00']
  | _ => none

/-- What `printf` writes for a format without further arguments. A null character ends the format,
and a percent sign is written twice; any other use of it asks for an argument, and without a null
character there is no end. -/
def formatted? : List Char → Option (List Char)
  | [] => none
  | '\x00' :: _ => some []
  | '%' :: '%' :: cs => (formatted? cs).map fun written => '%' :: written
  | c :: cs => if c = '%' then none else (formatted? cs).map fun written => c :: written

/-- The characters of a text and the escape behind them stand for the text and a line feed. -/
theorem literalCharacters?_text {cs : List Char} (h : ∀ c ∈ cs, Lexeme.isTextCharacter c = true) :
    literalCharacters? (cs ++ "\\n\"".toList) = some (cs ++ ['\n']) := by
  induction cs with
  | nil => rfl
  | cons c cs ih =>
    obtain ⟨hfirst, hothers⟩ := List.forall_mem_cons.mp h
    have hback : c ≠ '\\' := ne_of_class hfirst rfl
    have hquote : c ≠ '"' := ne_of_class hfirst rfl
    have hline : c ≠ '\n' := ne_of_class hfirst rfl
    rw [List.cons_append, literalCharacters?, if_neg (by simp [hback, hquote, hline]), ih hothers]
    · rfl
    · exact fun heq => absurd heq hquote
    · exact fun _ _ heq => absurd heq hback

/-- The literal of a text stands for the text, a line feed and a null character. -/
theorem array?_text {text : String} (h : ∀ c ∈ text.toList, Lexeme.isTextCharacter c = true) :
    array? ("\"" ++ text ++ "\\n\"") = some (text.toList ++ ['\n', '\x00']) := by
  have hliteral : ("\"" ++ text ++ "\\n\"").toList = '"' :: (text.toList ++ "\\n\"".toList) := by
    simp [String.toList_append]
  rw [array?, hliteral]
  show (literalCharacters? _).map _ = _
  rw [literalCharacters?_text h]
  simp

/-- A format without percent signs is written up to its first null character. -/
theorem formatted?_append_null {cs : List Char} (h : '%' ∉ cs) (rest : List Char) :
    formatted? (cs ++ '\x00' :: rest) = some (cs.takeWhile (· != '\x00')) := by
  induction cs with
  | nil => rfl
  | cons c cs ih =>
    obtain ⟨hfirst, hothers⟩ := not_or.mp (mt List.mem_cons.mpr h)
    by_cases hnull : c = '\x00'
    · subst hnull
      rfl
    · have hkeep : (c != '\x00') = true := bne_iff_ne.mpr hnull
      have hpercent : c ≠ '%' := fun hsame => hfirst hsame.symm
      rw [List.cons_append, formatted?, if_neg hpercent, ih hothers]
      · simp [hkeep]
      · exact fun heq => absurd heq hnull
      · exact fun _ heq => absurd heq hpercent

/-- The array of a text is written up to the first null character. -/
theorem formatted?_text {cs : List Char} (h : ∀ c ∈ cs, Lexeme.isTextCharacter c = true) :
    formatted? (cs ++ ['\n', '\x00']) = some ((cs ++ ['\n']).takeWhile (· != '\x00')) := by
  have hpercent : '%' ∉ cs ++ ['\n'] := by
    intro hmem
    rcases List.mem_append.mp hmem with hmem | hmem
    · cases h _ hmem
    · cases List.mem_singleton.mp hmem
  have hwritten := formatted?_append_null hpercent []
  rwa [List.append_assoc] at hwritten

/-- All of a text and its line feed come before the first null character if the text holds none. -/
theorem takeWhile_null_eq_self_iff {cs : List Char} :
    (cs ++ ['\n']).takeWhile (· != '\x00') = cs ++ ['\n'] ↔ '\x00' ∉ cs := by
  rw [List.takeWhile_eq_self_iff]
  constructor
  · intro hall hnull
    cases hall _ (List.mem_append_left _ hnull)
  · intro hnull c hc
    rcases List.mem_append.mp hc with hc | hc
    · refine bne_iff_ne.mpr fun hsame => hnull ?_
      rwa [hsame] at hc
    · rw [List.mem_singleton.mp hc]
      rfl

/-! ## Lines that print a text -/

/-- The tokens call `printf` with a literal and nothing else. -/
def isTextCall : List Token → Bool
  | [.name function, .punctuator opening, .literal _, .punctuator closing, .punctuator stop] =>
    function == "printf" && opening == "(" && closing == ")" && stop == ";"
  | _ => false

/-- The line calls `printf` with a literal and nothing else. -/
def callsText (line : String) : Bool :=
  isTextCall (tokens line.toList)

/-- A call of `printf` with a literal begins in one way and has five tokens. -/
theorem eq_of_isTextCall {tokens : List Token} (h : isTextCall tokens = true) :
    ∃ literal, tokens = [.name "printf", .punctuator "(", .literal literal, .punctuator ")",
      .punctuator ";"] := by
  unfold isTextCall at h
  split at h
  · simp only [Bool.and_eq_true, beq_iff_eq] at h
    obtain ⟨⟨⟨rfl, rfl⟩, rfl⟩, rfl⟩ := h
    exact ⟨_, rfl⟩
  · cases h

/-- Lines whose tokens are no calls with a literal call no text. -/
theorem filter_callsText_eq_nil {lines : List String} {tokenLines : List (List Token)}
    (htokens : lineTokens lines = tokenLines)
    (h : ∀ tokens ∈ tokenLines, isTextCall tokens ≠ true) : lines.filter callsText = [] := by
  refine List.filter_eq_nil_iff.mpr fun line hline => h _ ?_
  rw [← htokens]
  exact List.mem_map_of_mem hline

/-- The line that prints a text. -/
def textLine (text : String) : String :=
  "printf(\"" ++ text ++ "\\n\");"

end C

/-! ## Texts of a source -/

/-- The quoted texts among the terminals, in order. -/
def quotedTexts (terminals : List Terminal) : List String :=
  terminals.filterMap fun t => if t.kind = .text then some t.text else none

/-- The quoted texts of two stretches. -/
@[simp] theorem quotedTexts_append (terminals terminals' : List Terminal) :
    quotedTexts (terminals ++ terminals') = quotedTexts terminals ++ quotedTexts terminals' :=
  List.filterMap_append

/-- The quoted texts of one terminal more in front. -/
theorem quotedTexts_cons (t : Terminal) (terminals : List Terminal) :
    quotedTexts (t :: terminals) =
      if t.kind = .text then t.text :: quotedTexts terminals else quotedTexts terminals := by
  unfold quotedTexts
  by_cases h : t.kind = .text
  · simp [h]
  · simp [h]

/-- Line ends are no quoted texts. -/
@[simp] theorem quotedTexts_replicate_lineEnd (count : Nat) :
    quotedTexts (List.replicate count .lineEnd) = [] := by
  induction count with
  | zero => rfl
  | succ count ih => exact ih

/-- Line ends are no quoted texts. -/
@[simp] theorem quotedTexts_lineEnds (blank : Nat) : quotedTexts (lineEnds blank) = [] :=
  quotedTexts_replicate_lineEnd (blank + 1)

/-- There is no quoted text in a factor. -/
theorem Factor.quotedTexts_terminals (factor : Factor) : quotedTexts factor.terminals = [] := by
  obtain ⟨sign, operand⟩ := factor
  cases sign <;> cases operand <;> rfl

section Chains

variable {joins : Operator → Bool} {Part : Type} {terminals : Part → List Terminal}

/-- There is no quoted text in links if there is none in their parts. -/
theorem Link.quotedTexts_terminals (hpart : ∀ part, quotedTexts (terminals part) = [])
    (links : List (Link joins Part)) : quotedTexts (Link.terminals terminals links) = [] := by
  induction links with
  | nil => rfl
  | cons link links ih =>
    show quotedTexts ((.operator link.operator :: terminals link.part) ++ _) = []
    rw [quotedTexts_append, quotedTexts_cons, if_neg Kind.noConfusion, hpart]
    exact ih

/-- There is no quoted text in a chain if there is none in its parts. -/
theorem Chain.quotedTexts_terminals (hpart : ∀ part, quotedTexts (terminals part) = [])
    (chain : Chain joins Part) : quotedTexts (Chain.terminals terminals chain) = [] := by
  rw [Chain.terminals, quotedTexts_append, hpart, Link.quotedTexts_terminals hpart]
  rfl

end Chains

/-- There is no quoted text in an expression. -/
@[simp] theorem Expression.quotedTexts_terminals (expression : Expression) :
    quotedTexts expression.terminals = [] :=
  Chain.quotedTexts_terminals (Chain.quotedTexts_terminals Factor.quotedTexts_terminals) expression

/-- There is no quoted text in a condition. -/
@[simp] theorem Condition.quotedTexts_terminals (condition : Condition) :
    quotedTexts condition.terminals = [] := by
  rw [Condition.terminals, quotedTexts_append, Expression.quotedTexts_terminals,
    Link.quotedTexts_terminals Expression.quotedTexts_terminals]
  rfl

mutual

/-- Of the lines of a statement, those that print a text print its quoted texts, in order. -/
theorem Statement.filter_callsText (statement : Statement)
    (h : ∀ t ∈ statement.terminals, t.WellFormed) :
    statement.lines.filter C.callsText = (quotedTexts statement.terminals).map C.textLine := by
  have htokens := statement.lineTokens_lines h
  cases statement with
  | printText text blank =>
    have htext : ∀ c ∈ text.toList, Lexeme.isTextCharacter c = true :=
      h (.quoted text) (by simp [terminals])
    have hcall : C.callsText (C.textLine text) = true := by
      rw [C.callsText, C.textLine, C.tokens_printText htext]
      rfl
    have htexts : quotedTexts (terminals (.printText text blank)) = [text] := by
      show text :: quotedTexts (lineEnds blank) = [text]
      rw [quotedTexts_lineEnds]
    rw [htexts]
    exact List.filter_cons_of_pos hcall
  | guarded guard condition opening body blank =>
    have hcondition : C.Spells condition.code condition.terminals := Condition.spellsInC
      fun t ht => h t (by simp [terminals, ht])
    have hbody := list_filter_callsText body fun t ht => h t (by simp [terminals, ht])
    have hopening : C.callsText (guard.code ++ "(" ++ condition.code ++ ")\x7b") = false := by
      refine Bool.eq_false_iff.mpr fun hcall => ?_
      obtain ⟨literal, hsame⟩ := C.eq_of_isTextCall hcall
      rw [hcondition.tokens_guard] at hsame
      cases guard <;> simp [Guard.code] at hsame
    have hclosing : C.callsText "\x7d" = false := by
      rw [C.callsText, C.tokens_closing]
      rfl
    simp [lines, terminals, quotedTexts_cons, hopening, hclosing, hbody]
  | printValue | label | jump | assignment | input =>
    -- None of these has a quoted text, and the first two tokens or their number tell the lines
    -- from calls with a literal.
    refine (C.filter_callsText_eq_nil htokens fun tokens hmem hcall => ?_).trans ?_
    · obtain ⟨literal, rfl⟩ := C.eq_of_isTextCall hcall
      simp [tokenLines] at hmem
    · simp [terminals, quotedTexts_cons]

/-- Of the lines of statements, those that print a text print their quoted texts, in order. -/
theorem Statement.list_filter_callsText (statements : List Statement)
    (h : ∀ t ∈ listTerminals statements, t.WellFormed) :
    (listLines statements).filter C.callsText =
      (quotedTexts (listTerminals statements)).map C.textLine := by
  cases statements with
  | nil => rfl
  | cons statement statements =>
    have hfirst := filter_callsText statement fun t ht => h t (List.mem_append_left _ ht)
    have hothers := list_filter_callsText statements fun t ht => h t (List.mem_append_right _ ht)
    rw [listLines, listTerminals, List.filter_append, hfirst, hothers, quotedTexts_append,
      List.map_append]

end

/-- The quoted texts of a program are those of its statements. -/
theorem Program.quotedTexts_terminals (program : Program) :
    quotedTexts program.terminals = quotedTexts (Statement.listTerminals program.statements) := by
  have hend : quotedTexts [.endOfInput] = [] := rfl
  simp [Program.terminals, hend]

/-- A quoted text of a program holds nothing but characters that can stand in one. -/
theorem Program.isTextCharacter_of_mem {program : Program}
    (h : ∀ t ∈ program.terminals, t.WellFormed) {text : String}
    (hmem : text ∈ quotedTexts program.terminals) :
    ∀ c ∈ text.toList, Lexeme.isTextCharacter c = true := by
  obtain ⟨t, ht, htext⟩ := List.mem_filterMap.mp hmem
  have hwell := h t ht
  split at htext
  · next hkind =>
    cases htext
    rw [Terminal.WellFormed, hkind] at hwell
    exact hwell
  · cases htext

/-- The lines that call `printf` with a literal only are those of the quoted texts, in order. In
such a line there is one literal, which ends with the last quote. It stands for the text, a line
feed and the null character at the end, and what is printed is the text and the line feed, up to the
first null character: all of it, exactly if the text holds none. -/
theorem printed_text_iff {source code : String} (h : compile source = .ok code) :
    (statementLines code).filter C.callsText =
        (quotedTexts (sourceTerminals source)).map C.textLine ∧
      ∀ text ∈ quotedTexts (sourceTerminals source), ∃ array,
        C.tokens (C.textLine text).toList = [.name "printf", .punctuator "(",
          .literal ("\"" ++ text ++ "\\n\""), .punctuator ")", .punctuator ";"] ∧
        C.array? ("\"" ++ text ++ "\\n\"") = some array ∧
        array = text.toList ++ ['\n', '\x00'] ∧
        C.formatted? array = some ((text.toList ++ ['\n']).takeWhile (· != '\x00')) ∧
        (C.formatted? array = some (text.toList ++ ['\n']) ↔ '\x00' ∉ text.toList) := by
  obtain ⟨program, hprogram, hwell, -, rfl⟩ := exists_program_of_compile h
  rw [hprogram]
  constructor
  · rw [Program.statementLines_text hwell, program.quotedTexts_terminals]
    exact Statement.list_filter_callsText _ (Program.wellFormed_statements hwell)
  · intro text htext
    have hclass := Program.isTextCharacter_of_mem hwell htext
    have hwritten := C.formatted?_text hclass
    refine ⟨_, C.tokens_printText hclass, C.array?_text hclass, rfl, hwritten, ?_⟩
    rw [hwritten, Option.some_inj]
    exact C.takeWhile_null_eq_self_iff

/-- A text with a digraph and a trigraph of C, the beginning of a comment and an apostrophe is
printed as it stands, also in a block. -/
theorem printed_text_iff_signs :
    ∃ code, compile "PRINT \"a\"\nIF 1 < 2 THEN\nPRINT \"<:/* it's ??/\"\nENDIF\n" = .ok code ∧
      (statementLines code).filter C.callsText = ["a", "<:/* it's ??/"].map C.textLine ∧
      ∃ array, C.array? "\"<:/* it's ??/\\n\"" = some array ∧
        C.formatted? array = some "<:/* it's ??/\n".toList := by
  have hcompile : compile "PRINT \"a\"\nIF 1 < 2 THEN\nPRINT \"<:/* it's ??/\"\nENDIF\n" =
      .ok ("#include <stdio.h>\nint main(void)\x7b\nprintf(\"a\\n\");\nif(1 < 2)\x7b\n" ++
        "printf(\"<:/* it's ??/\\n\");\n\x7d\nreturn 0;\n\x7d\n") := by
    decide +kernel
  have htexts : quotedTexts (sourceTerminals
      "PRINT \"a\"\nIF 1 < 2 THEN\nPRINT \"<:/* it's ??/\"\nENDIF\n") =
        ["a", "<:/* it's ??/"] := by
    decide +kernel
  obtain ⟨hlines, hprinted⟩ := printed_text_iff hcompile
  rw [htexts] at hlines hprinted
  obtain ⟨array, -, harray, -, -, hwritten⟩ := hprinted "<:/* it's ??/" (by simp)
  exact ⟨_, hcompile, hlines, array, harray, hwritten.mpr (by decide)⟩

/-- A null character in a text ends the format: of the text `a`, null, `b` and the line feed behind
it only `a` is printed. -/
theorem printed_text_null :
    ∃ code array, compile "PRINT \"a\x00b\"\n" = .ok code ∧
      quotedTexts (sourceTerminals "PRINT \"a\x00b\"\n") = ["a\x00b"] ∧
      statementLines code = [C.textLine "a\x00b"] ∧
      C.array? "\"a\x00b\\n\"" = some array ∧ C.formatted? array = some ['a'] ∧
      C.formatted? array ≠ some ("a\x00b".toList ++ ['\n']) := by
  refine ⟨"#include <stdio.h>\nint main(void)\x7b\n" ++
    "printf(\"a\x00b\\n\");\nreturn 0;\n\x7d\n", "a\x00b\n\x00".toList, ?_⟩
  decide +kernel

end BasicCompiler
