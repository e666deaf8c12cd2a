import BasicCompiler.Compiler.Fragment
import BasicCompiler.Proofs.Grammar.Tree

/-!
# Phrases

A phrase is a stretch of a program in three views: its terminals, its names and its C text. Every
syntax tree has a phrase, and the phrase of a tree is put together from those of its parts; the C
text is put together from the pieces that the compiler writes, one by one.
-/

namespace BasicCompiler

/-- A stretch of a program: its terminals, what it says about names, and its C text. -/
@[ext] structure Phrase where
  terminals : List Terminal
  mentions : List Mention
  code : String

namespace Phrase

/-- The phrase without anything in it. -/
def empty : Phrase :=
  ⟨[], [], ""⟩

/-- A phrase that is one terminal. -/
def ofTerminal (terminal : Terminal) : Phrase :=
  ⟨[terminal], [], ""⟩

/-- A phrase that is line ends. -/
def ofLines (count : Nat) : Phrase :=
  ⟨List.replicate count .lineEnd, [], ""⟩

/-- A phrase that is C text. -/
def ofCode (code : String) : Phrase :=
  ⟨[], [], code⟩

/-- A phrase that is a mention. -/
def ofMention (mention : Mention) : Phrase :=
  ⟨[], [mention], ""⟩

/-- One phrase behind another. -/
instance : Append Phrase where
  append p q := ⟨p.terminals ++ q.terminals, p.mentions ++ q.mentions, p.code ++ q.code⟩

/-- The terminals of two phrases in a row. -/
@[simp] theorem terminals_append (p q : Phrase) :
    (p ++ q).terminals = p.terminals ++ q.terminals := rfl

/-- The names of two phrases in a row. -/
@[simp] theorem mentions_append (p q : Phrase) :
    (p ++ q).mentions = p.mentions ++ q.mentions := rfl

/-- The C text of two phrases in a row. -/
@[simp] theorem code_append (p q : Phrase) : (p ++ q).code = p.code ++ q.code := rfl

/-- Phrases in a row can be grouped in any way. -/
theorem append_assoc (p q r : Phrase) : p ++ q ++ r = p ++ (q ++ r) := by
  ext1
  · exact List.append_assoc _ _ _
  · exact List.append_assoc _ _ _
  · exact String.append_assoc

/-- Nothing in front of a phrase. -/
@[simp] theorem empty_append (p : Phrase) : empty ++ p = p := by
  ext1
  · rfl
  · rfl
  · exact String.empty_append

/-- Nothing behind a phrase. -/
@[simp] theorem append_empty (p : Phrase) : p ++ empty = p := by
  ext1
  · exact List.append_nil _
  · exact List.append_nil _
  · exact String.append_empty

end Phrase

/-! ## The phrases of trees -/

/-- The phrase of an operand. -/
def Operand.phrase (operand : Operand) : Phrase :=
  ⟨operand.terminals, operand.mentions, operand.code⟩

/-- The phrase of a factor. -/
def Factor.phrase (factor : Factor) : Phrase :=
  ⟨factor.terminals, factor.mentions, factor.code⟩

/-- The phrase of a term. -/
def Term.phrase (term : Term) : Phrase :=
  ⟨term.terminals, term.mentions, term.code⟩

/-- The phrase of an expression. -/
def Expression.phrase (expression : Expression) : Phrase :=
  ⟨expression.terminals, expression.mentions, expression.code⟩

/-- The phrase of a condition. -/
def Condition.phrase (condition : Condition) : Phrase :=
  ⟨condition.terminals, condition.mentions, condition.code⟩

/-- The phrase of the links of a chain. -/
def Link.phrase {joins : Operator → Bool} {Part : Type} (part : Part → Phrase)
    (links : List (Link joins Part)) : Phrase :=
  ⟨Link.terminals (fun p => (part p).terminals) links,
    Link.mentions (fun p => (part p).mentions) links, Link.code (fun p => (part p).code) links⟩

/-- The phrase of an operator between two parts of a chain. -/
def Phrase.ofJoin (o : Operator) : Phrase :=
  ⟨[.operator o], [], " " ++ o.spelling ++ " "⟩

/-- The phrase of a statement. -/
def Statement.phrase (statement : Statement) : Phrase :=
  ⟨statement.terminals, statement.mentions, unlines statement.lines⟩

/-- The phrase of statements in a row. -/
def Statement.listPhrase (statements : List Statement) : Phrase :=
  ⟨listTerminals statements, listMentions statements, unlines (listLines statements)⟩

/-- Without a sign a factor is its operand. -/
theorem Factor.phrase_none (operand : Operand) : phrase ⟨none, operand⟩ = operand.phrase := by
  ext1
  · rfl
  · rfl
  · exact String.empty_append

/-- No links, no phrase. -/
@[simp] theorem Link.phrase_nil {joins : Operator → Bool} {Part : Type} (part : Part → Phrase) :
    Link.phrase part ([] : List (Link joins Part)) = .empty := rfl

/-- A link is an operator and a part. -/
theorem Link.phrase_cons {joins : Operator → Bool} {Part : Type} (part : Part → Phrase)
    (link : Link joins Part) (links : List (Link joins Part)) :
    Link.phrase part (link :: links) =
      Phrase.ofJoin link.operator ++ (part link.part ++ Link.phrase part links) := by
  ext1
  · simp [Link.phrase, Link.terminals, Phrase.ofJoin]
  · simp [Link.phrase, Link.mentions, Phrase.ofJoin]
  · simp [Link.phrase, Link.code, Phrase.ofJoin, String.append_assoc]

/-- A term is a factor and links. -/
theorem Term.phrase_mk (first : Factor) (links : List (Link Operator.isMultiplicative Factor)) :
    phrase ⟨first, links⟩ = first.phrase ++ Link.phrase Factor.phrase links := rfl

/-- An expression is a term and links. -/
theorem Expression.phrase_mk (first : Term) (links : List (Link Operator.isAdditive Term)) :
    phrase ⟨first, links⟩ = first.phrase ++ Link.phrase Term.phrase links := rfl

/-- A condition is an expression and links. -/
theorem Condition.phrase_mk (first : Expression) (link : Link Operator.isComparison Expression)
    (links : List (Link Operator.isComparison Expression)) :
    phrase ⟨first, link, links⟩ = first.phrase ++ Link.phrase Expression.phrase (link :: links) :=
  rfl

/-- Statements follow one another. -/
theorem Statement.listPhrase_cons (statement : Statement) (statements : List Statement) :
    listPhrase (statement :: statements) = statement.phrase ++ listPhrase statements := by
  apply Phrase.ext
  · rfl
  · rfl
  · exact unlines_append _ _

/-- How the C text of a guarded statement begins. -/
def Guard.fragment : Guard → String
  | branch => Fragment.ifOpen
  | loop => Fragment.whileOpen

/-- The phrase of what a conditional or a loop consists of behind its first word. -/
def Guard.phrase (guard : Guard) (condition : Condition) (opening : Nat)
    (body : List Statement) : Phrase :=
  .ofCode guard.fragment ++ (condition.phrase ++ (.ofTerminal (.keyword guard.opening) ++
    (.ofLines (opening + 1) ++ (.ofCode Fragment.blockOpen ++ (Statement.listPhrase body ++
      (.ofTerminal (.keyword guard.closing) ++ .ofCode Fragment.blockClose))))))

/-- A conditional or a loop is its first word, the rest of it and line ends. -/
theorem Statement.phrase_guarded (guard : Guard) (condition : Condition) (opening : Nat)
    (body : List Statement) (blank : Nat) :
    phrase (.guarded guard condition opening body blank) =
      .ofTerminal (.keyword guard.leading) ++ (guard.phrase condition opening body ++
        .ofLines (blank + 1)) := by
  have fragment : guard.fragment = guard.code ++ "(" := by cases guard <;> rfl
  apply Phrase.ext
  · simp [phrase, terminals, Guard.phrase, Phrase.ofTerminal, Phrase.ofCode, Phrase.ofLines,
      Condition.phrase, listPhrase, lineEnds]
  · simp [phrase, mentions, Guard.phrase, Phrase.ofTerminal, Phrase.ofCode, Phrase.ofLines,
      Condition.phrase, listPhrase]
  · simp [phrase, lines, Guard.phrase, Phrase.ofTerminal, Phrase.ofCode, Phrase.ofLines,
      Condition.phrase, listPhrase, unlines_cons, unlines_append, String.append_assoc, fragment,
      Fragment.blockOpen, Fragment.blockClose]

/-- A PRINT statement with a text is its first word, the text and line ends. -/
theorem Statement.phrase_printText (text : String) (blank : Nat) :
    phrase (.printText text blank) =
      .ofTerminal (.keyword .PRINT) ++
        (⟨[.quoted text], [], Fragment.printText text⟩ ++ .ofLines (blank + 1)) := by
  apply Phrase.ext
  · rfl
  · rfl
  · simp [phrase, lines, unlines_cons, Phrase.ofTerminal, Phrase.ofLines, Fragment.printText,
      String.append_assoc]

/-- A PRINT statement with a value is its first word, the value and line ends. -/
theorem Statement.phrase_printValue (value : Expression) (blank : Nat) :
    phrase (.printValue value blank) =
      .ofTerminal (.keyword .PRINT) ++
        (.ofCode Fragment.printOpen ++ (value.phrase ++ .ofCode Fragment.printClose) ++
          .ofLines (blank + 1)) := by
  apply Phrase.ext
  · simp [phrase, terminals, Expression.phrase, Phrase.ofTerminal, Phrase.ofCode, Phrase.ofLines,
      lineEnds]
  · simp [phrase, mentions, Expression.phrase, Phrase.ofTerminal, Phrase.ofCode, Phrase.ofLines]
  · simp [phrase, lines, unlines_cons, Expression.phrase, Phrase.ofTerminal, Phrase.ofCode,
      Phrase.ofLines, Fragment.printOpen, Fragment.printClose, String.append_assoc]

/-- A label is its first word, its name and line ends. -/
theorem Statement.phrase_label (name : String) (blank : Nat) :
    phrase (.label name blank) =
      .ofTerminal (.keyword .LABEL) ++ (.ofTerminal (.name name) ++
        (.ofMention (.label name) ++ .ofCode (Fragment.label name)) ++ .ofLines (blank + 1)) := by
  apply Phrase.ext
  · rfl
  · rfl
  · simp [phrase, lines, unlines_cons, Phrase.ofTerminal, Phrase.ofCode, Phrase.ofLines,
      Phrase.ofMention, Fragment.label, String.append_assoc]

/-- A jump is its first word, its label and line ends. -/
theorem Statement.phrase_jump (name : String) (blank : Nat) :
    phrase (.jump name blank) =
      .ofTerminal (.keyword .GOTO) ++ (.ofTerminal (.name name) ++
        (.ofCode (Fragment.jump name) ++ .ofMention (.jump name)) ++ .ofLines (blank + 1)) := by
  apply Phrase.ext
  · rfl
  · rfl
  · simp [phrase, lines, unlines_cons, Phrase.ofTerminal, Phrase.ofCode, Phrase.ofLines,
      Phrase.ofMention, Fragment.jump, String.append_assoc]

/-- An assignment is its first word, its variable, its value and line ends. -/
theorem Statement.phrase_assignment (name : String) (value : Expression) (blank : Nat) :
    phrase (.assignment name value blank) =
      .ofTerminal (.keyword .LET) ++
        (.ofTerminal (.name name) ++ (.ofTerminal (.operator .assign) ++
          (.ofCode (Fragment.assignOpen name) ++ (value.phrase ++
            (.ofCode Fragment.assignClose ++ .ofMention (.assigned name))))) ++
          .ofLines (blank + 1)) := by
  apply Phrase.ext
  · simp [phrase, terminals, Expression.phrase, Phrase.ofTerminal, Phrase.ofCode, Phrase.ofLines,
      Phrase.ofMention, lineEnds]
  · simp [phrase, mentions, Expression.phrase, Phrase.ofTerminal, Phrase.ofCode, Phrase.ofLines,
      Phrase.ofMention]
  · simp [phrase, lines, unlines_cons, Expression.phrase, Phrase.ofTerminal, Phrase.ofCode,
      Phrase.ofLines, Phrase.ofMention, Fragment.assignOpen, Fragment.assignClose,
      String.append_assoc]

/-- The four lines of an INPUT statement are one piece of text. -/
theorem Fragment.input_eq (name : String) (blank : Nat) :
    unlines (Statement.input name blank).lines = Fragment.input name := by
  have opening : ∀ rest, ")) \x7b" ++ ("\n" ++ rest) = ")) \x7b\n" ++ rest := fun rest =>
    String.append_assoc.symm.trans (congrArg (· ++ rest) rfl)
  have closing : " = 0;" ++ ("\n" ++ ("scanf(\"%*s\");" ++ ("\n" ++ ("\x7d" ++ "\n")))) =
      " = 0;\nscanf(\"%*s\");\n\x7d\n" := rfl
  unfold Fragment.input
  simp only [Statement.lines, unlines_cons, unlines_nil, String.append_assoc, String.append_empty,
    opening, closing]

/-- An INPUT statement is its first word, its variable and line ends. -/
theorem Statement.phrase_input (name : String) (blank : Nat) :
    phrase (.input name blank) =
      .ofTerminal (.keyword .INPUT) ++ (.ofTerminal (.name name) ++
        (.ofMention (.assigned name) ++ .ofCode (Fragment.input name)) ++
          .ofLines (blank + 1)) := by
  rw [← Fragment.input_eq name blank]
  apply Phrase.ext
  · rfl
  · rfl
  · simp only [phrase, Phrase.code_append, Phrase.ofTerminal, Phrase.ofMention, Phrase.ofCode,
      Phrase.ofLines, String.empty_append, String.append_empty]

end BasicCompiler
