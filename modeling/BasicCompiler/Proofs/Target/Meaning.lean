import BasicCompiler.Proofs.Target.Constants

/-!
# What expressions mean

`Expression.value` is the value of an expression of a program: every value is a fraction, and
nothing is rounded or truncated. Read `expression_value_of_exact` first: C finds the tree of an
expression in its text, and calculates its value if it reads the numbers as they are written and no
division of integers leaves a remainder. Remainders are lost, as `expression_value_truncated` shows.
-/

namespace BasicCompiler

/-! ## Values -/

/-- The value of an operand, if the variables have the values that `env` says. -/
def Operand.value (env : String → Rat) : Operand → Rat
  | number digits => decimal digits.toList
  | name word => env word

/-- The value of a factor. -/
def Factor.value (env : String → Rat) (factor : Factor) : Rat :=
  match factor.sign with
  | some sign => sign.operator.onOperand (factor.operand.value env)
  | none => factor.operand.value env

section Chains

variable {joins : Operator → Bool} {Part : Type}

/-- The value of the links of a chain behind a value. -/
def Link.value (part : Part → Option Rat) (left : Rat) (links : List (Link joins Part)) :
    Option Rat :=
  links.foldlM (fun left link => (part link.part).bind (link.operator.onRationals left)) left

/-- The value of a chain: its operators group from the left. -/
def Chain.value (part : Part → Option Rat) (chain : Chain joins Part) : Option Rat :=
  (part chain.first).bind fun left => Link.value part left chain.links

/-- The parts of a chain. -/
def Chain.parts (chain : Chain joins Part) : List Part :=
  chain.first :: chain.links.map Link.part

end Chains

/-- The value of a term. -/
def Term.value (env : String → Rat) (term : Term) : Option Rat :=
  Chain.value (fun factor => some (Factor.value env factor)) term

/-- The value of an expression. -/
def Expression.value (env : String → Rat) (expression : Expression) : Option Rat :=
  Chain.value (Term.value env) expression

/-- No divisor of the expression is zero. -/
def Expression.DivisorsNonzero (env : String → Rat) (expression : Expression) : Prop :=
  ∀ term ∈ Chain.parts expression, ∀ link ∈ term.links, link.operator = .divide →
    link.part.value env ≠ 0

/-- Whether a divisor is zero can be decided by calculating. -/
instance (env : String → Rat) (expression : Expression) :
    Decidable (expression.DivisorsNonzero env) :=
  inferInstanceAs (Decidable (∀ term ∈ Chain.parts expression, ∀ link ∈ term.links,
    link.operator = .divide → link.part.value env ≠ 0))

/-- An arithmetic operator has a result unless it divides by zero. -/
theorem Operator.exists_onRationals {o : Operator}
    (h : o.isAdditive = true ∨ o.isMultiplicative = true) {right : Rat}
    (hright : o = .divide → right ≠ 0) (left : Rat) : ∃ q, o.onRationals left right = some q := by
  cases o with
  | plus | minus | times => exact ⟨_, rfl⟩
  | divide => exact ⟨left / right, if_neg (hright rfl)⟩
  | _ => rcases h with h | h <;> cases h

section Chains

variable {joins : Operator → Bool} {Part : Type}

/-- Links have a value if their parts have values to which their operators can be applied. -/
theorem Link.exists_value {part : Part → Option Rat} {links : List (Link joins Part)}
    (h : ∀ link ∈ links, ∃ right, part link.part = some right ∧
      ∀ left, ∃ q, link.operator.onRationals left right = some q) (left : Rat) :
    ∃ q, Link.value part left links = some q := by
  induction links generalizing left with
  | nil => exact ⟨left, rfl⟩
  | cons link links ih =>
    obtain ⟨⟨right, hright, hresult⟩, hothers⟩ := List.forall_mem_cons.mp h
    obtain ⟨q, hq⟩ := hresult left
    have hstep : Link.value part left (link :: links) = Link.value part q links := by
      rw [Link.value, List.foldlM_cons, hright, Option.bind_some, hq]
      rfl
    rw [hstep]
    exact ih hothers q

/-- A chain has a value if its parts have values to which its operators can be applied. -/
theorem Chain.exists_value {part : Part → Option Rat} {chain : Chain joins Part}
    (hfirst : ∃ q, part chain.first = some q)
    (hlinks : ∀ link ∈ chain.links, ∃ right, part link.part = some right ∧
      ∀ left, ∃ q, link.operator.onRationals left right = some q) :
    ∃ q, Chain.value part chain = some q := by
  obtain ⟨left, hleft⟩ := hfirst
  rw [Chain.value, hleft, Option.bind_some]
  exact Link.exists_value hlinks left

end Chains

/-- An expression without a divisor that is zero has a value. -/
theorem Expression.exists_value {env : String → Rat} {expression : Expression}
    (h : expression.DivisorsNonzero env) : ∃ q, expression.value env = some q := by
  have hterm : ∀ term ∈ Chain.parts expression, ∃ q, Term.value env term = some q := by
    intro term hterm
    refine Chain.exists_value ⟨_, rfl⟩ fun link hlink => ⟨_, rfl, ?_⟩
    exact Operator.exists_onRationals (.inr link.joins_operator) (h term hterm link hlink)
  refine Chain.exists_value (hterm _ List.mem_cons_self) fun link hlink => ?_
  obtain ⟨right, hright⟩ := hterm _ (List.mem_cons_of_mem _ (List.mem_map_of_mem hlink))
  refine ⟨right, hright, Operator.exists_onRationals (.inl link.joins_operator) fun hdivide => ?_⟩
  have hjoins := link.joins_operator
  rw [hdivide] at hjoins
  cases hjoins

/-! ## Trees -/

/-- The tree of an operand. -/
def Operand.tree : Operand → C.Tree
  | number digits => .number digits
  | name word => .name word

/-- The tree of a factor. -/
def Factor.tree (factor : Factor) : C.Tree :=
  match factor.sign with
  | some sign => .signed sign.operator factor.operand.tree
  | none => factor.operand.tree

section Chains

variable {joins : Operator → Bool} {Part : Type}

/-- The tree of the links of a chain behind a tree. -/
def Link.tree (part : Part → C.Tree) (left : C.Tree) (links : List (Link joins Part)) : C.Tree :=
  links.foldl (fun left link => .binary link.operator left (part link.part)) left

/-- The tree of a chain. -/
def Chain.tree (part : Part → C.Tree) (chain : Chain joins Part) : C.Tree :=
  Link.tree part (part chain.first) chain.links

end Chains

/-- The tree of a term. -/
def Term.tree (term : Term) : C.Tree :=
  Chain.tree Factor.tree term

/-- The tree of an expression. -/
def Expression.tree (expression : Expression) : C.Tree :=
  Chain.tree Term.tree expression

/-- The tree of a factor has its value. -/
theorem Factor.rational_tree (env : String → Rat) (factor : Factor) :
    factor.tree.rational env = some (factor.value env) := by
  obtain ⟨sign, operand⟩ := factor
  have hoperand : operand.tree.rational env = some (operand.value env) := by
    cases operand <;> rfl
  cases sign with
  | none => exact hoperand
  | some sign => exact congrArg (Option.map _) hoperand

section Chains

variable {joins : Operator → Bool} {Part : Type} {env : String → Rat}

/-- The tree of links has the value of the links behind the value of the tree they begin with. -/
theorem Link.rational_tree {tree : Part → C.Tree} {value : Part → Option Rat}
    (hpart : ∀ part, (tree part).rational env = value part) (left : C.Tree)
    (links : List (Link joins Part)) :
    (Link.tree tree left links).rational env =
      (left.rational env).bind fun q => Link.value value q links := by
  induction links generalizing left with
  | nil => simp [Link.tree, Link.value]
  | cons link links ih =>
    have htree : Link.tree tree left (link :: links) =
        Link.tree tree (.binary link.operator left (tree link.part)) links := rfl
    rw [htree, ih, C.Tree.rational, hpart]
    cases left.rational env with
    | none => rfl
    | some q =>
      cases hright : value link.part with
      | none => simp [Link.value, hright]
      | some r => simp [Link.value, hright]

/-- The tree of a chain has its value. -/
theorem Chain.rational_tree {tree : Part → C.Tree} {value : Part → Option Rat}
    (hpart : ∀ part, (tree part).rational env = value part) (chain : Chain joins Part) :
    (Chain.tree tree chain).rational env = Chain.value value chain := by
  rw [Chain.tree, Link.rational_tree hpart, hpart]
  rfl

/-- The constants of a chain are numbers among its terminals. -/
theorem Chain.mem_terminals_of_mem_numerals {tree : Part → C.Tree}
    {terminals : Part → List Terminal}
    (hpart : ∀ part, ∀ text ∈ (tree part).numerals, .number text ∈ terminals part)
    (chain : Chain joins Part) :
    ∀ text ∈ (Chain.tree tree chain).numerals, .number text ∈ Chain.terminals terminals chain := by
  have hlinks : ∀ (links : List (Link joins Part)) (left : C.Tree),
      (Link.tree tree left links).numerals =
        left.numerals ++ links.flatMap fun link => (tree link.part).numerals := by
    intro links
    induction links with
    | nil => exact fun left => (List.append_nil _).symm
    | cons link links ih =>
      intro left
      show (Link.tree tree (.binary link.operator left (tree link.part)) links).numerals = _
      rw [ih, C.Tree.numerals, List.append_assoc]
      rfl
  intro text htext
  rw [Chain.tree, hlinks] at htext
  rcases List.mem_append.mp htext with htext | htext
  · exact List.mem_append_left _ (hpart _ text htext)
  · obtain ⟨link, hlink, htext⟩ := List.mem_flatMap.mp htext
    refine List.mem_append_right _ (List.mem_flatMap.mpr ⟨link, hlink, ?_⟩)
    exact List.mem_cons_of_mem _ (hpart _ text htext)

end Chains

/-- The tree of an expression has its value. -/
theorem Expression.rational_tree (env : String → Rat) (expression : Expression) :
    expression.tree.rational env = expression.value env :=
  Chain.rational_tree (Chain.rational_tree (Factor.rational_tree env)) expression

/-- The constants of an expression are numbers among its terminals. -/
theorem Expression.mem_terminals_of_mem_numerals (expression : Expression) :
    ∀ text ∈ expression.tree.numerals, .number text ∈ expression.terminals := by
  have hfactor : ∀ factor : Factor, ∀ text ∈ factor.tree.numerals,
      .number text ∈ factor.terminals := by
    intro factor text htext
    obtain ⟨sign, operand⟩ := factor
    have hoperand : text ∈ operand.tree.numerals := by
      cases sign <;> exact htext
    refine List.mem_append_right _ ?_
    cases operand with
    | number digits =>
      rw [List.mem_singleton.mp hoperand]
      exact List.mem_cons_self
    | name word => cases hoperand
  exact Chain.mem_terminals_of_mem_numerals (Chain.mem_terminals_of_mem_numerals hfactor) expression

/-! ## Parsing -/

section Parsing

open C

/-- An operator of products continues a product. -/
theorem parseBehind_multiplicative {o : Operator} (h : o.isMultiplicative = true)
    (sum : Option (Tree × Operator)) (product : Tree) (rest : List C.Token) :
    parseBehind sum product (.ofTerminal (.operator o) :: rest) =
      parseOperand sum (some (product, o)) [] rest := by
  cases o with
  | times | divide => rfl
  | _ => cases h

/-- An operator of sums ends a product. -/
theorem parseBehind_additive {o : Operator} (h : o.isAdditive = true)
    (sum : Option (Tree × Operator)) (product : Tree) (rest : List C.Token) :
    parseBehind sum product (.ofTerminal (.operator o) :: rest) =
      parseOperand (some (close sum product, o)) none [] rest := by
  cases o with
  | plus | minus => rfl
  | _ => cases h

/-- The tokens of a link and further ones. -/
theorem Link.map_terminals_cons {joins : Operator → Bool} {Part : Type}
    (terminals : Part → List Terminal) (link : Link joins Part) (links : List (Link joins Part)) :
    (Link.terminals terminals (link :: links)).map C.Token.ofTerminal =
      .ofTerminal (.operator link.operator) :: ((terminals link.part).map .ofTerminal ++
        (Link.terminals terminals links).map .ofTerminal) := by
  simp [Link.terminals]

/-- A factor is parsed as its tree. -/
theorem Factor.parse_terminals (factor : Factor) (sum product : Option (Tree × Operator))
    (rest : List C.Token) :
    parseOperand sum product [] (factor.terminals.map C.Token.ofTerminal ++ rest) =
      parseBehind sum (close product factor.tree) rest := by
  obtain ⟨sign, operand⟩ := factor
  cases sign with
  | none => cases operand <;> rfl
  | some sign =>
    obtain ⟨o, ho⟩ := sign
    cases o with
    | plus | minus => cases operand <;> rfl
    | _ => cases ho

/-- The factors of a term are parsed as one product. -/
theorem Term.parse_links (links : List (Link Operator.isMultiplicative Factor))
    (sum : Option (Tree × Operator)) (left : Tree) (rest : List C.Token) :
    parseBehind sum left ((Link.terminals Factor.terminals links).map C.Token.ofTerminal ++ rest) =
      parseBehind sum (Link.tree Factor.tree left links) rest := by
  induction links generalizing left with
  | nil => rfl
  | cons link links ih =>
    rw [Link.map_terminals_cons, List.cons_append, parseBehind_multiplicative link.joins_operator,
      List.append_assoc, Factor.parse_terminals, ih]
    rfl

/-- A term is parsed as its tree. -/
theorem Term.parse_terminals (term : Term) (sum : Option (Tree × Operator)) (rest : List C.Token) :
    parseOperand sum none [] (term.terminals.map C.Token.ofTerminal ++ rest) =
      parseBehind sum term.tree rest := by
  rw [Term.terminals, Chain.terminals, List.map_append, List.append_assoc, Factor.parse_terminals,
    Term.parse_links]
  rfl

/-- The terms of an expression are parsed as one sum. -/
theorem Expression.parse_links (links : List (Link Operator.isAdditive Term))
    (sum : Option (Tree × Operator)) (product : Tree) :
    parseBehind sum product ((Link.terminals Term.terminals links).map C.Token.ofTerminal) =
      some (Link.tree Term.tree (close sum product) links) := by
  induction links generalizing sum product with
  | nil => rfl
  | cons link links ih =>
    rw [Link.map_terminals_cons, parseBehind_additive link.joins_operator, Term.parse_terminals, ih]
    rfl

/-- An expression is parsed as its tree. -/
theorem Expression.parse_terminals (expression : Expression) :
    parse (expression.terminals.map C.Token.ofTerminal) = some expression.tree := by
  rw [Expression.terminals, Chain.terminals, List.map_append, parse, Term.parse_terminals,
    Expression.parse_links]
  rfl

/-- C finds the tree of an expression in its text. -/
theorem Expression.parse_code {expression : Expression}
    (h : ∀ t ∈ expression.terminals, t.WellFormed) :
    parse (tokens expression.code.toList) = some expression.tree := by
  have htokens : tokens expression.code.toList = expression.terminals.map C.Token.ofTerminal := by
    have hspells := Expression.spellsInC h [] nofun
    simpa [tokens] using hspells
  rw [htokens, Expression.parse_terminals]

end Parsing

/-! ## The expressions of a program -/

/-- The expressions that a condition compares. -/
def Condition.expressions (condition : Condition) : List Expression :=
  condition.first :: (condition.link :: condition.links).map Link.part

mutual

/-- The expressions of a statement. -/
def Statement.expressions : Statement → List Expression
  | .printValue value _ => [value]
  | .guarded _ condition _ body _ => condition.expressions ++ Statement.listExpressions body
  | .assignment _ value _ => [value]
  | .printText _ _ | .label _ _ | .jump _ _ | .input _ _ => []

/-- The expressions of statements in a row. -/
def Statement.listExpressions : List Statement → List Expression
  | [] => []
  | statement :: statements => statement.expressions ++ Statement.listExpressions statements

end

/-- The expressions of a program. -/
def Program.expressions (program : Program) : List Expression :=
  Statement.listExpressions program.statements

/-- The expression is made of some of the terminals, and its code stands in one of the lines. -/
structure Expression.OccursIn (expression : Expression) (terminals : List Terminal)
    (lines : List String) : Prop where
  subset : ∀ t ∈ expression.terminals, t ∈ terminals
  exists_line : ∃ line ∈ lines, expression.code.toList <:+: line.toList

namespace Expression.OccursIn

variable {expression : Expression} {terminals terminals' : List Terminal}
  {lines lines' : List String}

/-- There may be more terminals and more lines. -/
theorem mono (h : expression.OccursIn terminals lines) (hterminals : terminals ⊆ terminals')
    (hlines : lines ⊆ lines') : expression.OccursIn terminals' lines' := by
  obtain ⟨line, hline, hcode⟩ := h.exists_line
  exact ⟨fun t ht => hterminals (h.subset t ht), line, hlines hline, hcode⟩

end Expression.OccursIn

/-- The code of a part stands in that of its links. -/
theorem Link.infix_code {joins : Operator → Bool} {Part : Type} {code : Part → String}
    {links : List (Link joins Part)} {link : Link joins Part} (h : link ∈ links) :
    (code link.part).toList <:+: (Link.code code links).toList := by
  induction links with
  | nil => cases h
  | cons first links ih =>
    have hcode : (Link.code code (first :: links)).toList =
        (" " ++ first.operator.spelling ++ " ").toList ++ (code first.part).toList ++
          (Link.code code links).toList := by
      simp [Link.code, String.toList_append]
    rw [hcode]
    rcases List.mem_cons.mp h with rfl | h
    · exact List.infix_append _ _ _
    · exact (ih h).trans (List.suffix_append _ _).isInfix

/-- The expressions of a condition stand in its code. -/
theorem Condition.occursIn {condition : Condition} {expression : Expression}
    (h : expression ∈ condition.expressions) :
    (∀ t ∈ expression.terminals, t ∈ condition.terminals) ∧
      expression.code.toList <:+: condition.code.toList := by
  rw [terminals, code, String.toList_append]
  rcases List.mem_cons.mp h with rfl | h
  · exact ⟨fun t ht => List.mem_append_left _ ht, (List.prefix_append _ _).isInfix⟩
  · obtain ⟨link, hlink, rfl⟩ := List.mem_map.mp h
    refine ⟨fun t ht => List.mem_append_right _ ?_, ?_⟩
    · exact List.mem_flatMap.mpr ⟨link, hlink, List.mem_cons_of_mem _ ht⟩
    · exact (Link.infix_code hlink).trans (List.suffix_append _ _).isInfix

mutual

/-- The expressions of a statement stand in its lines. -/
theorem Statement.occursIn {statement : Statement} {expression : Expression}
    (h : expression ∈ statement.expressions) :
    expression.OccursIn statement.terminals statement.lines := by
  cases statement with
  | printText | label | jump | input => cases h
  | printValue value blank =>
    obtain rfl := List.mem_singleton.mp h
    refine ⟨fun t ht => ?_, _, List.mem_cons_self, ?_⟩
    · exact List.mem_cons_of_mem _ (List.mem_append_left _ ht)
    · rw [String.toList_append, String.toList_append]
      exact List.infix_append _ _ _
  | guarded guard condition opening body blank =>
    rcases List.mem_append.mp h with h | h
    · obtain ⟨hterminals, hcode⟩ := Condition.occursIn h
      refine ⟨fun t ht => by simp [terminals, hterminals t ht], _, List.mem_cons_self, ?_⟩
      rw [String.toList_append, String.toList_append]
      exact hcode.trans (List.infix_append _ _ _)
    · refine (list_occursIn h).mono (fun t ht => by simp [terminals, ht]) fun line hline => ?_
      exact List.mem_cons_of_mem _ (List.mem_append_left _ hline)
  | assignment name value blank =>
    obtain rfl := List.mem_singleton.mp h
    refine ⟨fun t ht => ?_, _, List.mem_cons_self, ?_⟩
    · simp [terminals, ht]
    · rw [String.toList_append, String.toList_append]
      exact List.infix_append _ _ _

/-- The expressions of statements in a row stand in their lines. -/
theorem Statement.list_occursIn {statements : List Statement} {expression : Expression}
    (h : expression ∈ listExpressions statements) :
    expression.OccursIn (listTerminals statements) (listLines statements) := by
  cases statements with
  | nil => cases h
  | cons statement statements =>
    rcases List.mem_append.mp h with h | h
    · exact (occursIn h).mono (List.subset_append_left _ _) (List.subset_append_left _ _)
    · exact (list_occursIn h).mono (List.subset_append_right _ _) (List.subset_append_right _ _)

end

/-! ## Whole texts -/

/-- Every expression of a source stands in a line of the C text. C finds the tree of the expression
there. If C reads the numbers of the expression as they are written (those that it reads in base
eight have its digits only, and nothing but zeros in front of the last one), no divisor is zero, and
no division of integers leaves a remainder, then C calculates the value of the expression. -/
theorem expression_value_of_exact {source code : String} (h : compile source = .ok code)
    {program : Program} (hprogram : sourceTerminals source = program.terminals)
    {expression : Expression} (hmem : expression ∈ program.expressions) (env : String → Rat)
    (hnonzero : expression.DivisorsNonzero env)
    (hnumbers : ∀ t ∈ expression.terminals, t.kind = .number → C.isOctal t.text.toList = true →
      (∀ c ∈ t.text.toList, c < '8') ∧ ∀ c ∈ t.text.toList.dropLast, c = '0') :
    (∃ line ∈ statementLines code, expression.code.toList <:+: line.toList) ∧
      ∃ tree value, C.parse (C.tokens expression.code.toList) = some tree ∧
        expression.value env = some value ∧
        (tree.Exact env → ∃ result, C.evaluate env expression.code = some result ∧
          result.toRat = value) := by
  obtain ⟨other, hother, hwell, -, rfl⟩ := exists_program_of_compile h
  obtain rfl : other = program := Program.terminals_injective (hother.symm.trans hprogram)
  have hoccurs := Statement.list_occursIn hmem
  have hterminals : ∀ t ∈ expression.terminals, t.WellFormed := fun t ht =>
    Program.wellFormed_statements hwell t (hoccurs.subset t ht)
  have hparse := Expression.parse_code hterminals
  obtain ⟨value, hvalue⟩ := Expression.exists_value hnonzero
  rw [Program.statementLines_text hwell]
  refine ⟨hoccurs.exists_line, expression.tree, value, hparse, hvalue, fun hexact => ?_⟩
  rw [C.evaluate, hparse, Option.bind_some]
  refine C.Tree.value_of_exact (fun text htext => ?_) hexact ?_
  · have hnumber := expression.mem_terminals_of_mem_numerals text htext
    have hnumeral : (Terminal.number text).WellFormed := hterminals _ hnumber
    exact (C.exists_constant_iff hnumeral).mpr (hnumbers _ hnumber rfl)
  · rw [Expression.rational_tree]
    exact hvalue

/-- A quotient that begins with a variable is floating, and one of integers may leave no remainder:
where `x` is one and a half, C finds two and three quarters in `x / 2 + 06 / 3`. -/
theorem expression_value_of_exact_mixed :
    ∃ (code : String) (program : Program) (expression : Expression),
      compile "LET x = 1.5\nPRINT x / 2 + 06 / 3\n" = .ok code ∧
      sourceTerminals "LET x = 1.5\nPRINT x / 2 + 06 / 3\n" = program.terminals ∧
      expression ∈ program.expressions ∧ expression.code = "x / 2 + 06 / 3" ∧
      expression.value (fun _ => 3 / 2) = some (11 / 4) ∧
      ∃ result, C.evaluate (fun _ => 3 / 2) expression.code = some result ∧
        result.toRat = 11 / 4 := by
  have h : compile "LET x = 1.5\nPRINT x / 2 + 06 / 3\n" =
      .ok ("#include <stdio.h>\nint main(void)\x7b\nfloat x;\nx = 1.5;\n" ++
        "printf(\"%.2f\\n\", (float)(x / 2 + 06 / 3));\nreturn 0;\n\x7d\n") := by
    decide +kernel
  have hprogram : sourceTerminals "LET x = 1.5\nPRINT x / 2 + 06 / 3\n" =
      Program.terminals ⟨0, [.assignment "x" ⟨⟨⟨none, .number "1.5"⟩, []⟩, []⟩ 0,
        .printValue ⟨⟨⟨none, .name "x"⟩, [⟨.divide, rfl, ⟨none, .number "2"⟩⟩]⟩,
          [⟨.plus, rfl, ⟨⟨none, .number "06"⟩, [⟨.divide, rfl, ⟨none, .number "3"⟩⟩]⟩⟩]⟩ 0]⟩ := by
    decide +kernel
  -- The numbers of the expression are these three, and C reads only the second one in base eight.
  have hnumbers : ∀ cs ∈ ["2".toList, "06".toList, "3".toList], C.isOctal cs = true →
      (∀ c ∈ cs, c < '8') ∧ ∀ c ∈ cs.dropLast, c = '0' := by
    simp
  obtain ⟨-, tree, value, hparse, hvalue, hresult⟩ := expression_value_of_exact h hprogram
    (List.mem_cons_of_mem _ List.mem_cons_self) (fun _ => 3 / 2) (by decide +kernel)
    (fun t ht hkind => hnumbers t.text.toList (by decide +revert +kernel))
  obtain rfl : tree = .binary .plus (.binary .divide (.name "x") (.number "2"))
      (.binary .divide (.number "06") (.number "3")) :=
    Option.some.inj (hparse.symm.trans (by decide +kernel))
  obtain rfl : value = 11 / 4 := Option.some.inj (hvalue.symm.trans (by decide +kernel))
  exact ⟨_, _, _, h, hprogram, List.mem_cons_of_mem _ List.mem_cons_self, by decide +kernel, hvalue,
    hresult (by decide +kernel)⟩

/-- A quotient of integers is truncated: one divided by two is zero in the C text. -/
theorem expression_value_truncated :
    ∃ (code : String) (program : Program) (expression : Expression),
      compile "PRINT 1 / 2\n" = .ok code ∧
      sourceTerminals "PRINT 1 / 2\n" = program.terminals ∧ expression ∈ program.expressions ∧
      expression.DivisorsNonzero (fun _ => 0) ∧
      expression.value (fun _ => 0) = some (1 / 2) ∧
      C.evaluate (fun _ => 0) expression.code = some (.integer 0) := by
  have h : compile "PRINT 1 / 2\n" =
      .ok ("#include <stdio.h>\nint main(void)\x7b\n" ++
        "printf(\"%.2f\\n\", (float)(1 / 2));\nreturn 0;\n\x7d\n") := by
    decide +kernel
  exact ⟨_, ⟨0, [.printValue ⟨⟨⟨none, .number "1"⟩, [⟨.divide, rfl, ⟨none, .number "2"⟩⟩]⟩, []⟩ 0]⟩,
    _, h, by decide +kernel, List.mem_cons_self, by decide +kernel, by decide +kernel,
    by decide +kernel⟩

end BasicCompiler
