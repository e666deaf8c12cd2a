import BasicCompiler.Proofs.Lexing.Terminal

/-!
# Syntax trees

The grammar of the BASIC dialect, as data: a type for each rule, a constructor for each of its
alternatives.

```text
program    ::= {NEWLINE} {statement} EOF
statement  ::= "PRINT" (text | expression) lines
             | "IF" condition "THEN" lines {statement} "ENDIF" lines
             | "WHILE" condition "REPEAT" lines {statement} "ENDWHILE" lines
             | "LABEL" name lines
             | "GOTO" name lines
             | "LET" name "=" expression lines
             | "INPUT" name lines
lines      ::= NEWLINE {NEWLINE}
condition  ::= expression comparison expression {comparison expression}
expression ::= term {("+" | "-") term}
term       ::= factor {("*" | "/") factor}
factor     ::= ["+" | "-"] operand
operand    ::= number | name
```

`Program.terminals` is the sequence of terminals that a tree derives, `Program.mentions` what the
tree says about names, and `Program.text` the C program that it stands for, each by recursion on
the tree.
-/

namespace BasicCompiler

/-! ## The types -/

/-- A number or a variable. -/
inductive Operand where
  | number (digits : String)
  | name (word : String)
deriving DecidableEq, Repr

/-- An operator that can be a sign. -/
structure Sign where
  operator : Operator
  isAdditive : operator.isAdditive = true
deriving DecidableEq, Repr

/-- An operand with its sign, if it has one. -/
structure Factor where
  sign : Option Sign
  operand : Operand
deriving DecidableEq, Repr

/-- An operator of a class, and the part of a chain behind it. -/
structure Link (joins : Operator → Bool) (Part : Type) where
  operator : Operator
  joins_operator : joins operator = true
  part : Part
deriving DecidableEq, Repr

/-- Parts joined by operators of a class. -/
structure Chain (joins : Operator → Bool) (Part : Type) where
  first : Part
  links : List (Link joins Part)
deriving DecidableEq, Repr

/-- Factors that are multiplied and divided. -/
abbrev Term := Chain Operator.isMultiplicative Factor

/-- Terms that are added and subtracted. -/
abbrev Expression := Chain Operator.isAdditive Term

/-- Expressions that are compared, two at least. -/
structure Condition where
  first : Expression
  link : Link Operator.isComparison Expression
  links : List (Link Operator.isComparison Expression)
deriving DecidableEq, Repr

/-- The two ways in which a condition governs statements. -/
inductive Guard where
  | branch | loop
deriving DecidableEq, Repr

/-- A statement. Every statement, and the line that opens a block, ends with at least one line end;
`blank` is the number of line ends behind that one. -/
inductive Statement where
  | printText (text : String) (blank : Nat)
  | printValue (value : Expression) (blank : Nat)
  | guarded (guard : Guard) (condition : Condition) (opening : Nat) (body : List Statement)
      (blank : Nat)
  | label (name : String) (blank : Nat)
  | jump (name : String) (blank : Nat)
  | assignment (name : String) (value : Expression) (blank : Nat)
  | input (name : String) (blank : Nat)

/-- A program: blank lines, then statements. -/
structure Program where
  blank : Nat
  statements : List Statement

/-! ## Terminals -/

/-- The terminals of an operand. -/
def Operand.terminals : Operand → List Terminal
  | number digits => [.number digits]
  | name word => [.name word]

/-- The terminals of a factor. -/
def Factor.terminals (factor : Factor) : List Terminal :=
  (factor.sign.toList.map fun sign => .operator sign.operator) ++ factor.operand.terminals

section Chains

variable {joins : Operator → Bool} {Part : Type}

/-- The terminals of the links of a chain. -/
def Link.terminals (part : Part → List Terminal) (links : List (Link joins Part)) :
    List Terminal :=
  links.flatMap fun link => .operator link.operator :: part link.part

/-- The terminals of a chain. -/
def Chain.terminals (part : Part → List Terminal) (chain : Chain joins Part) : List Terminal :=
  part chain.first ++ Link.terminals part chain.links

end Chains

/-- The terminals of a term. -/
def Term.terminals (term : Term) : List Terminal :=
  Chain.terminals Factor.terminals term

/-- The terminals of an expression. -/
def Expression.terminals (expression : Expression) : List Terminal :=
  Chain.terminals Term.terminals expression

/-- The terminals of a condition. -/
def Condition.terminals (condition : Condition) : List Terminal :=
  condition.first.terminals ++
    Link.terminals Expression.terminals (condition.link :: condition.links)

namespace Guard

/-- The word in front of the condition. -/
def leading : Guard → Keyword
  | branch => .IF
  | loop => .WHILE

/-- The word behind the condition. -/
def opening : Guard → Keyword
  | branch => .THEN
  | loop => .REPEAT

/-- The word behind the statements. -/
def closing : Guard → Keyword
  | branch => .ENDIF
  | loop => .ENDWHILE

end Guard

/-- One line end and some more. -/
def lineEnds (blank : Nat) : List Terminal :=
  List.replicate (blank + 1) .lineEnd

mutual

/-- The terminals of a statement. -/
def Statement.terminals : Statement → List Terminal
  | .printText text blank => .keyword .PRINT :: .quoted text :: lineEnds blank
  | .printValue value blank => .keyword .PRINT :: value.terminals ++ lineEnds blank
  | .guarded guard condition opening body blank =>
    .keyword guard.leading :: condition.terminals ++ .keyword guard.opening :: lineEnds opening ++
      Statement.listTerminals body ++ .keyword guard.closing :: lineEnds blank
  | .label name blank => .keyword .LABEL :: .name name :: lineEnds blank
  | .jump name blank => .keyword .GOTO :: .name name :: lineEnds blank
  | .assignment name value blank =>
    .keyword .LET :: .name name :: .operator .assign :: value.terminals ++ lineEnds blank
  | .input name blank => .keyword .INPUT :: .name name :: lineEnds blank

/-- The terminals of statements in a row. -/
def Statement.listTerminals : List Statement → List Terminal
  | [] => []
  | statement :: statements => statement.terminals ++ Statement.listTerminals statements

end

/-- The terminals of a program. -/
def Program.terminals (program : Program) : List Terminal :=
  List.replicate program.blank .lineEnd ++ Statement.listTerminals program.statements ++
    [.endOfInput]

/-! ## Names -/

/-- What a program says about a name at some point. -/
inductive Mention where
  /-- A variable is read. -/
  | read (name : String)
  /-- A variable has got a value. -/
  | assigned (name : String)
  /-- A label is declared. -/
  | label (name : String)
  /-- A label is jumped to. -/
  | jump (name : String)
deriving DecidableEq, Repr

/-- The variables of an operand. -/
def Operand.mentions : Operand → List Mention
  | number _ => []
  | name word => [.read word]

/-- The variables of a factor. -/
def Factor.mentions (factor : Factor) : List Mention :=
  factor.operand.mentions

section Chains

variable {joins : Operator → Bool} {Part : Type}

/-- The variables of the links of a chain. -/
def Link.mentions (part : Part → List Mention) (links : List (Link joins Part)) : List Mention :=
  links.flatMap fun link => part link.part

/-- The variables of a chain. -/
def Chain.mentions (part : Part → List Mention) (chain : Chain joins Part) : List Mention :=
  part chain.first ++ Link.mentions part chain.links

end Chains

/-- The variables of a term. -/
def Term.mentions (term : Term) : List Mention :=
  Chain.mentions Factor.mentions term

/-- The variables of an expression. -/
def Expression.mentions (expression : Expression) : List Mention :=
  Chain.mentions Term.mentions expression

/-- The variables of a condition. -/
def Condition.mentions (condition : Condition) : List Mention :=
  condition.first.mentions ++
    Link.mentions Expression.mentions (condition.link :: condition.links)

mutual

/-- The names of a statement in the order of its terminals, except that an assignment gives its
variable a value behind its right-hand side. -/
def Statement.mentions : Statement → List Mention
  | .printText _ _ => []
  | .printValue value _ => value.mentions
  | .guarded _ condition _ body _ => condition.mentions ++ Statement.listMentions body
  | .label name _ => [.label name]
  | .jump name _ => [.jump name]
  | .assignment name value _ => value.mentions ++ [.assigned name]
  | .input name _ => [.assigned name]

/-- The names of statements in a row. -/
def Statement.listMentions : List Statement → List Mention
  | [] => []
  | statement :: statements => statement.mentions ++ Statement.listMentions statements

end

/-- The names of a program. -/
def Program.mentions (program : Program) : List Mention :=
  Statement.listMentions program.statements

/-- The names that labels declare, in order. -/
def labelNames (mentions : List Mention) : List String :=
  mentions.filterMap fun mention =>
    match mention with
    | .label name => some name
    | _ => none

/-- The variables that get a value, in order, once for each time. -/
def assignedNames (mentions : List Mention) : List String :=
  mentions.filterMap fun mention =>
    match mention with
    | .assigned name => some name
    | _ => none

/-- Every variable has a value before it is read, no label is declared twice, and every label that
is jumped to is declared somewhere. -/
structure Program.Scoped (program : Program) : Prop where
  reads_assigned : ∀ before name after,
    program.mentions = before ++ .read name :: after → .assigned name ∈ before
  labels_nodup : (labelNames program.mentions).Nodup
  jumps_labelled : ∀ name, .jump name ∈ program.mentions → .label name ∈ program.mentions

/-! ## The C program

Expressions and conditions are written with their operands and operators in the order of the
program; statements are written as whole lines. -/

/-- The text of an operand. -/
def Operand.code : Operand → String
  | number digits => digits
  | name word => word

/-- The text of a factor: the sign stands directly in front of the operand. -/
def Factor.code (factor : Factor) : String :=
  (match factor.sign with
    | some sign => sign.operator.spelling
    | none => "") ++ factor.operand.code

section Chains

variable {joins : Operator → Bool} {Part : Type}

/-- The text of the links of a chain: every operator stands between two spaces. -/
def Link.code (part : Part → String) (links : List (Link joins Part)) : String :=
  String.join (links.map fun link => " " ++ link.operator.spelling ++ " " ++ part link.part)

/-- The text of a chain. -/
def Chain.code (part : Part → String) (chain : Chain joins Part) : String :=
  part chain.first ++ Link.code part chain.links

end Chains

/-- The text of a term. -/
def Term.code (term : Term) : String :=
  Chain.code Factor.code term

/-- The text of an expression. -/
def Expression.code (expression : Expression) : String :=
  Chain.code Term.code expression

/-- The text of a condition. -/
def Condition.code (condition : Condition) : String :=
  condition.first.code ++ Link.code Expression.code (condition.link :: condition.links)

/-- How C names the guard. -/
def Guard.code : Guard → String
  | branch => "if"
  | loop => "while"

mutual

/-- The C lines of a statement. -/
def Statement.lines : Statement → List String
  | .printText text _ => ["printf(\"" ++ text ++ "\\n\");"]
  | .printValue value _ => ["printf(\"%.2f\\n\", (float)(" ++ value.code ++ "));"]
  | .guarded guard condition _ body _ =>
    (guard.code ++ "(" ++ condition.code ++ ")\x7b") :: (Statement.listLines body ++ ["\x7d"])
  | .label name _ => [name ++ ":"]
  | .jump name _ => ["goto " ++ name ++ ";"]
  | .assignment name value _ => [name ++ " = " ++ value.code ++ ";"]
  | .input name _ =>
    ["if(0 == scanf(\"%f\", &" ++ name ++ ")) \x7b", name ++ " = 0;", "scanf(\"%*s\");", "\x7d"]

/-- The C lines of statements in a row. -/
def Statement.listLines : List Statement → List String
  | [] => []
  | statement :: statements => statement.lines ++ Statement.listLines statements

end

/-- Some names and one more, unless it is among them. -/
def including (names : List String) (name : String) : List String :=
  if name ∈ names then names else names ++ [name]

namespace Program

/-- The variables that get a value, each once, in the order in which they first get one. -/
def variableNames (program : Program) : List String :=
  (assignedNames program.mentions).foldl including []

/-- The C lines in front of the statements: two fixed lines, then the declarations. -/
def headerLines (program : Program) : List String :=
  ["#include <stdio.h>", "int main(void)\x7b"] ++
    program.variableNames.map fun name => "float " ++ name ++ ";"

/-- The C lines of the statements. -/
def bodyLines (program : Program) : List String :=
  Statement.listLines program.statements

/-- The C lines behind the statements. -/
def footerLines : List String :=
  ["return 0;", "\x7d"]

end Program

/-- The text that consists of some lines, each with its line feed. -/
def unlines (lines : List String) : String :=
  String.join (lines.map fun line => line ++ "\n")

/-- The C text of a program. -/
def Program.text (program : Program) : String :=
  unlines (program.headerLines ++ program.bodyLines ++ footerLines)

/-- The text of no lines. -/
@[simp] theorem unlines_nil : unlines [] = "" := rfl

/-- The text of a line and further ones. -/
theorem unlines_cons (line : String) (lines : List String) :
    unlines (line :: lines) = line ++ "\n" ++ unlines lines := by
  simp [unlines]

/-- The text of lines and further ones. -/
theorem unlines_append (lines lines' : List String) :
    unlines (lines ++ lines') = unlines lines ++ unlines lines' := by
  simp [unlines]

end BasicCompiler
