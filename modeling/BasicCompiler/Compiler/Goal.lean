import BasicCompiler.Compiler.Fragment
import BasicCompiler.Compiler.Scope

/-!
# Goals

The grammar as a table. A goal is something the compiler still has to find in the program, or
something it still has to do; `Goal.plan` says what a goal requires when the given tokens stand in
front. One token decides, so the table is predictive: no decision is ever taken back.

```text
program    ::= {NEWLINE} {statement} EOF
statement  ::= "PRINT" (text | expression) lines
             | "IF" condition "THEN" lines {statement} "ENDIF" lines
             | "WHILE" condition "REPEAT" lines {statement} "ENDWHILE" lines
             | "LABEL" name lines
             | "GOTO" name lines
             | "LET" name "=" expression lines
             | "INPUT" name lines
lines      ::= NEWLINE {NEWLINE}
condition  ::= expression comparison expression {comparison expression}
expression ::= term {("+" | "-") term}
term       ::= factor {("*" | "/") factor}
factor     ::= ["+" | "-"] operand
operand    ::= number | name
```

Every goal has a weight. `Goal.weight_lt_of_plan_eq_expand` and
`Goal.weight_lt_of_plan_eq_consume` bound what a goal leaves to be done, which is why a run of the
compiler ends.
-/

namespace BasicCompiler

/-- What a sequence of statements belongs to. -/
inductive Block where
  /-- The program itself. -/
  | program
  /-- The statements of a conditional. -/
  | branch
  /-- The statements of a loop. -/
  | loop
deriving DecidableEq, Repr

/-- The kind of token that ends the statements of a block. -/
def Block.closing : Block → Kind
  | program => .endOfInput
  | branch => .keyword .ENDIF
  | loop => .keyword .ENDWHILE

/-- The four statements that have a name behind their keyword. -/
inductive NameUse where
  | label | jump | assignment | input
deriving DecidableEq, Repr

/-- What the compiler does besides reading tokens. -/
inductive Action where
  /-- Write in the body. -/
  | write (text : String)
  /-- Declare a variable, unless it is declared already. -/
  | declare (name : String)
  /-- Declare a label whose name stands at the location. -/
  | mark (name : String) (location : Location)
  /-- Note a jump to a label whose name stands at the location. -/
  | jump (name : String) (location : Location)
deriving DecidableEq, Repr

/-- What is still to be found or to be done. -/
inductive Goal where
  /-- Any number of line ends. -/
  | blankLines
  /-- At least one line end. -/
  | lines
  /-- A reserved word. -/
  | keyword (keyword : Keyword)
  /-- An operator. -/
  | operator (operator : Operator)
  /-- The statements of a block, up to the token that ends it. -/
  | statements (block : Block)
  /-- What a PRINT statement prints. -/
  | printed
  /-- A name, and the rest of the statement it belongs to. -/
  | name (use : NameUse)
  /-- A condition. -/
  | condition
  /-- The rest of a condition behind its first expression. -/
  | comparison
  /-- The rest of a condition behind a further expression. -/
  | comparisons
  /-- An expression. -/
  | expression
  /-- The rest of an expression behind a term. -/
  | terms
  /-- A term. -/
  | term
  /-- The rest of a term behind a factor. -/
  | factors
  /-- An operand and its sign, if it has one. -/
  | factor
  /-- An operand. -/
  | operand
  /-- Something to be done. -/
  | act (action : Action)
deriving DecidableEq, Repr

/-- How a goal is pursued. -/
inductive Move where
  /-- The goal cannot be met. -/
  | reject (diagnostic : Diagnostic)
  /-- The goal is met by meeting other goals. -/
  | expand (goals : List Goal)
  /-- The goal is met by writing the text, then passing over the current token, then meeting other
  goals. -/
  | consume (text : String) (goals : List Goal)
  /-- The goal is met by an action. -/
  | perform (action : Action)
deriving DecidableEq, Repr

namespace Goal

/-- Write in the body. -/
abbrev write (text : String) : Goal :=
  .act (.write text)

/-- What a statement consists of behind its first token, without the line ends behind it; no
statement begins with a token of another kind. -/
def ofLeading? : Kind → Option (List Goal)
  | .keyword .PRINT => some [printed]
  | .keyword .IF => some
    [write Fragment.ifOpen, condition, keyword .THEN, lines, write Fragment.blockOpen,
      statements .branch, keyword .ENDIF, write Fragment.blockClose]
  | .keyword .WHILE => some
    [write Fragment.whileOpen, condition, keyword .REPEAT, lines, write Fragment.blockOpen,
      statements .loop, keyword .ENDWHILE, write Fragment.blockClose]
  | .keyword .LABEL => some [name .label]
  | .keyword .GOTO => some [name .jump]
  | .keyword .LET => some [name .assignment]
  | .keyword .INPUT => some [name .input]
  | _ => none

/-- What a statement consists of behind its name, which is `word` and stands at `location`. -/
def ofName (word : String) (location : Location) : NameUse → List Goal
  | .label => [act (.mark word location), write (Fragment.label word)]
  | .jump => [write (Fragment.jump word), act (.jump word location)]
  | .assignment =>
    [operator .assign, write (Fragment.assignOpen word), expression,
      write Fragment.assignClose, act (.declare word)]
  | .input => [act (.declare word), write (Fragment.input word)]

/-- The current token is not of the one kind that can stand here. -/
def unexpected (expected : Kind) (token : Token) : Move :=
  .reject (.unexpectedToken expected token.kind token.text token.location)

/-- The current token is of no kind that can stand here. -/
def misplaced (fault : GrammarFault) (token : Token) : Move :=
  .reject (.misplacedToken fault token.kind token.text token.location)

/-- Pass over the current token, which has to be of the given kind, to further goals. -/
def require (kind : Kind) (goals : List Goal) (token : Token) : Move :=
  if token.kind = kind then .consume "" goals else unexpected kind token

/-- The first statement of a block, at its first token. A name in front of an equals sign brings
the hint that an assignment starts with its keyword. -/
def planStatement (block : Block) (current next : Token) : Move :=
  match ofLeading? current.kind with
  | some goals => .consume "" (goals ++ [lines, statements block])
  | none =>
    misplaced (.noStatement (current.kind = .name ∧ next.kind = .operator .assign)) current

/-- A further operand behind an operator of a class, if such an operator is in front. -/
def planChain (joins : Operator → Bool) (part more : Goal) (current : Token)
    (otherwise : Move) : Move :=
  match current.kind with
  | .operator o =>
    if joins o then .consume (Fragment.binary current.text) [part, more] else otherwise
  | _ => otherwise

/-- What a goal requires when the tokens `current` and `next` stand in front. -/
def plan (scope : Scope) (current next : Token) : Goal → Move
  | blankLines => if current.kind = .lineEnd then .consume "" [blankLines] else .expand []
  | lines => require .lineEnd [blankLines] current
  | keyword k => require (.keyword k) [] current
  | operator o => require (.operator o) [] current
  | statements block =>
    if current.kind = block.closing then .expand []
    else if current.kind = .endOfInput then unexpected block.closing current
    else planStatement block current next
  | printed =>
    if current.kind = .text then .consume (Fragment.printText current.text) []
    else .expand [write Fragment.printOpen, expression, write Fragment.printClose]
  | name use => require .name (ofName current.text current.location use) current
  | condition => .expand [expression, comparison]
  | comparison =>
    planChain Operator.isComparison expression comparisons current
      (misplaced .noComparison current)
  | comparisons =>
    planChain Operator.isComparison expression comparisons current (.expand [])
  | expression => .expand [term, terms]
  | terms => planChain Operator.isAdditive term terms current (.expand [])
  | term => .expand [factor, factors]
  | factors => planChain Operator.isMultiplicative factor factors current (.expand [])
  | factor =>
    match current.kind with
    | .operator o => if o.isAdditive then .consume current.text [operand] else .expand [operand]
    | _ => .expand [operand]
  | operand =>
    match current.kind with
    | .number => .consume current.text []
    | .name =>
      if current.text ∈ scope.declared then .consume current.text []
      else .reject (.undeclaredVariable current.text current.location)
    | _ => misplaced .noOperand current
  | act action => .perform action

/-! ## Weights -/

/-- A bound on the goals that a goal opens before a token is consumed. -/
def weight : Goal → Nat
  | printed => 9
  | condition => 8
  | expression => 6
  | term => 4
  | factor => 2
  | _ => 1

/-- The weight of a list of goals. -/
def totalWeight : List Goal → Nat
  | [] => 0
  | goal :: goals => goal.weight + totalWeight goals

/-- Every goal has some weight. -/
theorem weight_pos (goal : Goal) : 0 < goal.weight := by
  cases goal <;> simp [weight]

/-- The weight of a list is the weight of its first goal and of the others. -/
theorem totalWeight_cons (goal : Goal) (goals : List Goal) :
    totalWeight (goal :: goals) = goal.weight + totalWeight goals :=
  rfl

/-- The weights of two lists add up. -/
theorem totalWeight_append (first second : List Goal) :
    totalWeight (first ++ second) = totalWeight first + totalWeight second := by
  induction first with
  | nil => exact (Nat.zero_add _).symm
  | cons goal first ih => rw [List.cons_append, totalWeight, totalWeight, ih, Nat.add_assoc]

/-- More than the weight of the goals that one token can open. -/
def maxWeight : Nat :=
  32

/-- A statement begins with a token, and what follows its first token is light. -/
theorem ofLeading?_bound {kind : Kind} {goals : List Goal} (h : ofLeading? kind = some goals) :
    kind ≠ .endOfInput ∧ totalWeight goals + 2 < maxWeight := by
  unfold ofLeading? at h
  split at h <;> simp_all <;> subst h <;> decide

/-- What a statement consists of behind its name is light. -/
theorem totalWeight_ofName (word : String) (location : Location) (use : NameUse) :
    totalWeight (ofName word location use) < maxWeight := by
  cases use <;> simp [ofName, totalWeight, weight, maxWeight]

/-- A required token is passed over only if it is of the required kind. -/
theorem eq_of_require_eq_consume {kind : Kind} {required goals : List Goal} {token : Token}
    {text : String} (h : require kind required token = .consume text goals) :
    token.kind = kind ∧ goals = required := by
  unfold require unexpected at h
  split at h <;> simp_all

/-- A chain is continued only behind an operator. -/
theorem eq_of_planChain_eq_consume {joins : Operator → Bool} {part more : Goal} {token : Token}
    {otherwise : Move} {text : String} {goals : List Goal}
    (h : planChain joins part more token otherwise = .consume text goals)
    (hother : otherwise ≠ .consume text goals) :
    token.kind ≠ .endOfInput ∧ goals = [part, more] := by
  unfold planChain at h
  repeat' split at h
  all_goals simp_all

/-- The goals that replace a goal without a token weigh less than the goal. -/
theorem weight_lt_of_plan_eq_expand {scope : Scope} {current next : Token} {goal : Goal}
    {goals : List Goal} (h : goal.plan scope current next = .expand goals) :
    totalWeight goals < goal.weight := by
  cases goal <;>
    simp only [plan, require, unexpected, misplaced, planStatement, planChain] at h <;>
    repeat' split at h
  all_goals cases h
  all_goals simp +decide [totalWeight, weight]

/-- The end of the input is never passed over, and what a token opens is light. -/
theorem weight_lt_of_plan_eq_consume {scope : Scope} {current next : Token} {goal : Goal}
    {text : String} {goals : List Goal}
    (h : goal.plan scope current next = .consume text goals) :
    current.kind ≠ .endOfInput ∧ totalWeight goals < maxWeight := by
  cases goal with
  | blankLines =>
    simp only [plan] at h
    split at h
    · cases h
      exact ⟨by simp_all, by decide⟩
    · cases h
  | lines | keyword | operator =>
    obtain ⟨hkind, rfl⟩ := eq_of_require_eq_consume h
    exact ⟨by simp [hkind], by decide⟩
  | statements block =>
    simp only [plan, unexpected, planStatement, misplaced] at h
    repeat' split at h
    case h_1 leading hleading =>
      cases h
      have bound := ofLeading?_bound hleading
      refine ⟨bound.1, ?_⟩
      simpa [totalWeight_append, totalWeight, weight] using bound.2
    all_goals cases h
  | printed =>
    simp only [plan] at h
    split at h
    · cases h
      exact ⟨by simp_all, by decide⟩
    · cases h
  | name use =>
    obtain ⟨hkind, rfl⟩ := eq_of_require_eq_consume h
    exact ⟨by simp [hkind], totalWeight_ofName _ _ _⟩
  | comparison | comparisons | terms | factors =>
    obtain ⟨hkind, rfl⟩ := eq_of_planChain_eq_consume h (by simp [misplaced])
    exact ⟨hkind, by decide⟩
  | factor =>
    simp only [plan] at h
    repeat' split at h
    all_goals cases h
    exact ⟨by simp_all, by decide⟩
  | operand =>
    simp only [plan, misplaced] at h
    repeat' split at h
    all_goals cases h
    all_goals exact ⟨by simp_all, by decide⟩
  | condition | expression | term | act => cases h

end Goal

end BasicCompiler
