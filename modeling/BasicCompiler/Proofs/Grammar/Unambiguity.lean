import BasicCompiler.Proofs.Grammar.Tree

/-!
# Trees are determined by their terminals

Read `Program.terminals_injective` first: the grammar is not ambiguous. The proof goes through the
rules from the operands up. For each of them, what a tree derives can be cancelled from the front
of a sequence of terminals, as long as what follows it could not have belonged to the tree.
-/

namespace BasicCompiler

/-- Two trees whose terminals begin one sequence are equal, if in either reading what is left of
the sequence is of the given sort. -/
def Cancels {Tree : Type} (terminals : Tree → List Terminal)
    (after : List Terminal → Prop) : Prop :=
  ∀ tree tree' rest rest', after rest → after rest' →
    terminals tree ++ rest = terminals tree' ++ rest' → tree = tree' ∧ rest = rest'

/-- The sequence does not begin with an operator of the class. -/
def Stops (joins : Operator → Bool) (rest : List Terminal) : Prop :=
  ∀ o, joins o = true → rest.head? ≠ some (.operator o)

/-- A sequence that does not begin with an operator stops every chain. -/
theorem stops_cons {joins : Operator → Bool} {terminal : Terminal} {rest : List Terminal}
    (h : ∀ o, terminal.kind ≠ .operator o) : Stops joins (terminal :: rest) := by
  intro o _ hhead
  exact h o (congrArg Terminal.kind (Option.some.inj hhead))

/-- An operator stops the chains of the classes to which it does not belong. -/
theorem stops_operator {joins : Operator → Bool} {o : Operator} {rest : List Terminal}
    (h : joins o = false) : Stops joins (.operator o :: rest) := by
  intro o' ho' hhead
  have same : o = o' := Kind.operator.inj (congrArg Terminal.kind (Option.some.inj hhead))
  rw [same, ho'] at h
  cases h

/-! ## Expressions -/

/-- Operands can be cancelled. -/
theorem Operand.cancels : Cancels Operand.terminals fun _ => True := by
  intro operand operand' rest rest' _ _ h
  cases operand <;> cases operand' <;>
    simp_all [Operand.terminals, Terminal.number, Terminal.name]

/-- An operand does not begin with an operator. -/
theorem Operand.terminals_append_ne (operand : Operand) (o : Operator)
    (rest rest' : List Terminal) : operand.terminals ++ rest ≠ .operator o :: rest' := by
  intro h
  cases operand <;> cases congrArg (fun ts => ts.head?.map Terminal.kind) h

/-- Factors can be cancelled. -/
theorem Factor.cancels : Cancels Factor.terminals fun _ => True := by
  intro factor factor' rest rest' _ _ h
  obtain ⟨sign, operand⟩ := factor
  obtain ⟨sign', operand'⟩ := factor'
  cases sign with
  | none =>
    cases sign' with
    | none =>
      obtain ⟨rfl, rest_eq⟩ := Operand.cancels operand operand' rest rest' trivial trivial h
      exact ⟨rfl, rest_eq⟩
    | some sign' => exact absurd h (operand.terminals_append_ne _ _ _)
  | some sign =>
    cases sign' with
    | none => exact absurd h.symm (operand'.terminals_append_ne _ _ _)
    | some sign' =>
      obtain ⟨same, h⟩ := List.cons.inj h
      obtain ⟨rfl, rest_eq⟩ := Operand.cancels operand operand' rest rest' trivial trivial h
      have signs : sign = sign' := by
        cases sign
        cases sign'
        cases congrArg Terminal.kind same
        rfl
      exact ⟨by rw [signs], rest_eq⟩

section Chains

variable {joins : Operator → Bool} {Part : Type} {part : Part → List Terminal}
  {after : List Terminal → Prop}

/-- Behind a part stands either the next operator of its chain or what follows the chain. -/
theorem Link.after_terminals_append
    (hafter : ∀ o rest, joins o = true → after (.operator o :: rest))
    (links : List (Link joins Part)) {rest : List Terminal} (hrest : after rest) :
    after (Link.terminals part links ++ rest) := by
  cases links with
  | nil => exact hrest
  | cons link links => exact hafter _ _ link.joins_operator

/-- The links of a chain can be cancelled in front of what stops the chain. -/
theorem Link.cancels (hpart : Cancels part after)
    (hafter : ∀ o rest, joins o = true → after (.operator o :: rest)) :
    Cancels (fun links : List (Link joins Part) => Link.terminals part links)
      fun rest => after rest ∧ Stops joins rest := by
  intro links
  -- a chain that ends earlier than the other is followed by an operator that would go on with it
  induction links with
  | nil =>
    intro links' rest rest' hrest _ h
    obtain ⟨-, hstop⟩ := hrest
    cases links' with
    | nil => exact ⟨rfl, h⟩
    | cons link' links' =>
      have head : rest.head? = some (.operator link'.operator) := congrArg List.head? h
      exact absurd head (hstop _ link'.joins_operator)
  | cons link links ih =>
    intro links' rest rest' hrest hrest' h
    cases links' with
    | nil =>
      have head : rest'.head? = some (.operator link.operator) := congrArg List.head? h.symm
      exact absurd head (hrest'.2 _ link.joins_operator)
    | cons link' links' =>
      simp only [Link.terminals, List.flatMap_cons, List.cons_append, List.append_assoc] at h
      obtain ⟨same, h⟩ := List.cons.inj h
      obtain ⟨parts, hlinks⟩ := hpart link.part link'.part _ _
        (after_terminals_append hafter links hrest.1)
        (after_terminals_append hafter links' hrest'.1) h
      obtain ⟨rfl, rest_eq⟩ := ih links' rest rest' hrest hrest' hlinks
      have link_eq : link = link' := by
        cases link
        cases link'
        cases congrArg Terminal.kind same
        cases parts
        rfl
      exact ⟨by rw [link_eq], rest_eq⟩

/-- Chains can be cancelled in front of what stops them. -/
theorem Chain.cancels (hpart : Cancels part after)
    (hafter : ∀ o rest, joins o = true → after (.operator o :: rest)) :
    Cancels (fun chain : Chain joins Part => Chain.terminals part chain)
      fun rest => after rest ∧ Stops joins rest := by
  intro chain chain' rest rest' hrest hrest' h
  obtain ⟨first, links⟩ := chain
  obtain ⟨first', links'⟩ := chain'
  simp only [Chain.terminals, List.append_assoc] at h
  obtain ⟨rfl, hlinks⟩ := hpart first first' _ _
    (Link.after_terminals_append hafter links hrest.1)
    (Link.after_terminals_append hafter links' hrest'.1) h
  obtain ⟨rfl, rest_eq⟩ := Link.cancels hpart hafter links links' rest rest' hrest hrest' hlinks
  exact ⟨rfl, rest_eq⟩

end Chains

/-- The operators of a class do not belong to a class that is disjoint from it. -/
theorem isMultiplicative_of_isAdditive {o : Operator} (h : o.isAdditive = true) :
    o.isMultiplicative = false := by
  cases o with
  | plus | minus => rfl
  | _ => cases h

/-- Comparisons are not arithmetic. -/
theorem not_arithmetic_of_isComparison {o : Operator} (h : o.isComparison = true) :
    o.isMultiplicative = false ∧ o.isAdditive = false := by
  cases o with
  | equal | notEqual | less | lessEqual | greater | greaterEqual => exact ⟨rfl, rfl⟩
  | _ => cases h

/-- Terms can be cancelled in front of what does not multiply. -/
theorem Term.cancels : Cancels Term.terminals
    fun rest => True ∧ Stops Operator.isMultiplicative rest :=
  Chain.cancels Factor.cancels fun _ _ _ => trivial

/-- What does not go on with an arithmetic operator. -/
def StopsExpression (rest : List Terminal) : Prop :=
  (True ∧ Stops Operator.isMultiplicative rest) ∧ Stops Operator.isAdditive rest

/-- Expressions can be cancelled in front of what is not arithmetic. -/
theorem Expression.cancels : Cancels Expression.terminals StopsExpression :=
  Chain.cancels Term.cancels fun _ _ h =>
    ⟨trivial, stops_operator (isMultiplicative_of_isAdditive h)⟩

/-- A terminal that is no operator stops expressions. -/
theorem stopsExpression_cons {terminal : Terminal} {rest : List Terminal}
    (h : ∀ o, terminal.kind ≠ .operator o) : StopsExpression (terminal :: rest) :=
  ⟨⟨trivial, stops_cons h⟩, stops_cons h⟩

/-- Conditions can be cancelled in front of what begins with no operator. -/
theorem Condition.cancels : Cancels Condition.terminals
    fun rest => StopsExpression rest ∧ Stops Operator.isComparison rest := by
  intro condition condition' rest rest' hrest hrest' h
  obtain ⟨first, link, links⟩ := condition
  obtain ⟨first', link', links'⟩ := condition'
  have hafter : ∀ o rest, Operator.isComparison o = true → StopsExpression (.operator o :: rest) :=
    fun o rest ho => ⟨⟨trivial, stops_operator (not_arithmetic_of_isComparison ho).1⟩,
      stops_operator (not_arithmetic_of_isComparison ho).2⟩
  simp only [Condition.terminals, List.append_assoc] at h
  obtain ⟨rfl, hlinks⟩ := Expression.cancels first first' _ _
    (Link.after_terminals_append hafter _ hrest.1)
    (Link.after_terminals_append hafter _ hrest'.1) h
  obtain ⟨links_eq, rest_eq⟩ :=
    Link.cancels Expression.cancels hafter _ _ rest rest' hrest hrest' hlinks
  cases links_eq
  exact ⟨rfl, rest_eq⟩

/-- Expressions begin with an operand or a sign, so not with a quoted text. -/
theorem Expression.terminals_append_ne (expression : Expression) (text : String)
    (rest rest' : List Terminal) : expression.terminals ++ rest ≠ .quoted text :: rest' := by
  obtain ⟨⟨⟨sign, operand⟩, factors⟩, terms⟩ := expression
  intro h
  have kinds := congrArg (fun ts => ts.head?.map Terminal.kind) h
  cases sign <;> cases operand <;> cases kinds

/-! ## Statements -/

/-- Line ends can be cancelled in front of what is no line end. -/
theorem lineEnds_cancels : Cancels lineEnds fun rest => rest.head? ≠ some .lineEnd := by
  intro blank
  induction blank with
  | zero =>
    intro blank' rest rest' hrest hrest' h
    cases blank' with
    | zero => exact ⟨rfl, (List.cons.inj h).2⟩
    | succ blank' => exact absurd (congrArg List.head? (List.cons.inj h).2) hrest
  | succ blank ih =>
    intro blank' rest rest' hrest hrest' h
    cases blank' with
    | zero => exact absurd (congrArg List.head? (List.cons.inj h).2.symm) hrest'
    | succ blank' =>
      obtain ⟨rfl, rest_eq⟩ := ih blank' rest rest' hrest hrest' (List.cons.inj h).2
      exact ⟨rfl, rest_eq⟩

/-- The sequence begins with what ends the statements of a block or of a program. -/
def Closes (rest : List Terminal) : Prop :=
  rest.head? = some .endOfInput ∨ ∃ guard : Guard, rest.head? = some (.keyword guard.closing)

/-- What ends a block is no line end. -/
theorem Closes.head?_ne_lineEnd {rest : List Terminal} (h : Closes rest) :
    rest.head? ≠ some .lineEnd := by
  rcases h with h | ⟨guard, h⟩
  · rw [h]
    decide
  · rw [h]
    cases guard <;> decide

/-- A statement begins with a word, and not with one that ends a block. -/
theorem Statement.head?_terminals (statement : Statement) (rest : List Terminal) :
    ∃ k, (statement.terminals ++ rest).head? = some (.keyword k) ∧
      ∀ guard : Guard, k ≠ guard.closing := by
  cases statement with
  | guarded guard =>
    refine ⟨guard.leading, rfl, fun other => ?_⟩
    cases guard <;> cases other <;> decide
  | printText | printValue | label | jump | assignment | input =>
    refine ⟨_, rfl, fun guard => ?_⟩
    cases guard <;> decide

/-- No statement begins where a block ends. -/
theorem Closes.ne_statement {rest rest' : List Terminal} (h : Closes rest)
    (statement : Statement) : rest ≠ statement.terminals ++ rest' := by
  intro hsame
  subst hsame
  obtain ⟨k, head, hk⟩ := statement.head?_terminals rest'
  rcases h with h | ⟨guard, h⟩
  · rw [head] at h
    cases h
  · rw [head] at h
    exact hk guard (Kind.keyword.inj (congrArg Terminal.kind (Option.some.inj h)))

/-- Behind a statement stands no line end but its own ones. -/
theorem Statement.head?_listTerminals_ne {rest : List Terminal} (h : Closes rest)
    (statements : List Statement) :
    (listTerminals statements ++ rest).head? ≠ some .lineEnd := by
  cases statements with
  | nil => exact h.head?_ne_lineEnd
  | cons statement statements =>
    rw [listTerminals, List.append_assoc]
    obtain ⟨k, head, -⟩ := statement.head?_terminals (listTerminals statements ++ rest)
    rw [head]
    intro hsame
    cases hsame

/-- Behind a line end no expression goes on. -/
theorem stopsExpression_lineEnds (blank : Nat) (rest : List Terminal) :
    StopsExpression (lineEnds blank ++ rest) :=
  stopsExpression_cons (by simp)

/-- A terminal with the line ends behind it can be cancelled. -/
theorem terminal_lineEnds_cancels {terminal terminal' : Terminal} {blank blank' : Nat}
    {rest rest' : List Terminal} (hrest : rest.head? ≠ some .lineEnd)
    (hrest' : rest'.head? ≠ some .lineEnd)
    (h : terminal :: (lineEnds blank ++ rest) = terminal' :: (lineEnds blank' ++ rest')) :
    terminal.text = terminal'.text ∧ blank = blank' ∧ rest = rest' := by
  obtain ⟨same, hlines⟩ := List.cons.inj h
  exact ⟨congrArg Terminal.text same, lineEnds_cancels _ _ _ _ hrest hrest' hlines⟩

/-- An expression with the line ends behind it can be cancelled. -/
theorem expression_lineEnds_cancels {value value' : Expression} {blank blank' : Nat}
    {rest rest' : List Terminal} (hrest : rest.head? ≠ some .lineEnd)
    (hrest' : rest'.head? ≠ some .lineEnd)
    (h : value.terminals ++ (lineEnds blank ++ rest) =
      value'.terminals ++ (lineEnds blank' ++ rest')) :
    value = value' ∧ blank = blank' ∧ rest = rest' := by
  obtain ⟨same, hlines⟩ := Expression.cancels _ _ _ _ (stopsExpression_lineEnds _ _)
    (stopsExpression_lineEnds _ _) h
  exact ⟨same, lineEnds_cancels _ _ _ _ hrest hrest' hlines⟩

/-- Guards begin with different words. -/
theorem leading_injective {guard guard' : Guard}
    (h : Terminal.keyword guard.leading = .keyword guard'.leading) : guard = guard' := by
  cases guard with
  | branch =>
    cases guard' with
    | branch => rfl
    | loop => cases h
  | loop =>
    cases guard' with
    | branch => cases h
    | loop => rfl

mutual

/-- Statements can be cancelled in front of what is no line end. -/
theorem Statement.cancels (statement : Statement) :
    ∀ statement' rest rest', rest.head? ≠ some .lineEnd → rest'.head? ≠ some .lineEnd →
      statement.terminals ++ rest = statement'.terminals ++ rest' →
      statement = statement' ∧ rest = rest' := by
  intro statement' rest rest' hrest hrest' h
  -- two statements of different forms differ in their first word, PRINT statements aside
  cases statement with
  | printText text blank =>
    cases statement' with
    | printText text' blank' =>
      obtain ⟨same, rfl, rest_eq⟩ := terminal_lineEnds_cancels hrest hrest' (List.cons.inj h).2
      cases same
      exact ⟨rfl, rest_eq⟩
    | printValue value' blank' =>
      simp only [terminals, List.cons_append, List.append_assoc, List.cons.injEq] at h
      exact absurd h.2.symm (value'.terminals_append_ne _ _ _)
    | guarded guard' => cases guard' <;> cases h
    | _ => cases h
  | printValue value blank =>
    cases statement' with
    | printText text' blank' =>
      simp only [terminals, List.cons_append, List.append_assoc, List.cons.injEq] at h
      exact absurd h.2 (value.terminals_append_ne _ _ _)
    | printValue value' blank' =>
      simp only [terminals, List.cons_append, List.append_assoc, List.cons.injEq] at h
      obtain ⟨rfl, rfl, rest_eq⟩ := expression_lineEnds_cancels hrest hrest' h.2
      exact ⟨rfl, rest_eq⟩
    | guarded guard' => cases guard' <;> cases h
    | _ => cases h
  | guarded guard condition opening body blank =>
    cases statement' with
    | guarded guard' condition' opening' body' blank' =>
      simp only [terminals, List.cons_append, List.append_assoc, List.cons.injEq] at h
      obtain ⟨hguard, hcondition⟩ := h
      -- the opening word ends the condition, and the closing word ends the body
      obtain rfl := leading_injective hguard
      have stops : ∀ rest, StopsExpression (.keyword guard.opening :: rest) ∧
          Stops Operator.isComparison (.keyword guard.opening :: rest) :=
        fun rest => ⟨stopsExpression_cons (by simp), stops_cons (by simp)⟩
      obtain ⟨rfl, hopening⟩ := Condition.cancels _ _ _ _ (stops _) (stops _) hcondition
      have closes : ∀ rest, Closes (.keyword guard.closing :: rest) :=
        fun rest => .inr ⟨guard, rfl⟩
      obtain ⟨rfl, hbody⟩ := lineEnds_cancels _ _ _ _ (head?_listTerminals_ne (closes _) body)
        (head?_listTerminals_ne (closes _) body') (List.cons.inj hopening).2
      obtain ⟨rfl, hclosing⟩ := list_cancels body body' _ _ (closes _) (closes _) hbody
      obtain ⟨rfl, rest_eq⟩ :=
        lineEnds_cancels _ _ _ _ hrest hrest' (List.cons.inj hclosing).2
      exact ⟨rfl, rest_eq⟩
    | _ => cases guard <;> cases h
  | label name blank =>
    cases statement' with
    | label name' blank' =>
      obtain ⟨same, rfl, rest_eq⟩ := terminal_lineEnds_cancels hrest hrest' (List.cons.inj h).2
      cases same
      exact ⟨rfl, rest_eq⟩
    | guarded guard' => cases guard' <;> cases h
    | _ => cases h
  | jump name blank =>
    cases statement' with
    | jump name' blank' =>
      obtain ⟨same, rfl, rest_eq⟩ := terminal_lineEnds_cancels hrest hrest' (List.cons.inj h).2
      cases same
      exact ⟨rfl, rest_eq⟩
    | guarded guard' => cases guard' <;> cases h
    | _ => cases h
  | assignment name value blank =>
    cases statement' with
    | assignment name' value' blank' =>
      simp only [terminals, List.cons_append, List.append_assoc, List.cons.injEq] at h
      obtain ⟨-, same, -, hvalue⟩ := h
      cases congrArg Terminal.text same
      obtain ⟨rfl, rfl, rest_eq⟩ := expression_lineEnds_cancels hrest hrest' hvalue
      exact ⟨rfl, rest_eq⟩
    | guarded guard' => cases guard' <;> cases h
    | _ => cases h
  | input name blank =>
    cases statement' with
    | input name' blank' =>
      obtain ⟨same, rfl, rest_eq⟩ := terminal_lineEnds_cancels hrest hrest' (List.cons.inj h).2
      cases same
      exact ⟨rfl, rest_eq⟩
    | guarded guard' => cases guard' <;> cases h
    | _ => cases h

/-- Statements in a row can be cancelled in front of what ends a block. -/
theorem Statement.list_cancels (statements : List Statement) :
    ∀ statements' rest rest', Closes rest → Closes rest' →
      listTerminals statements ++ rest = listTerminals statements' ++ rest' →
      statements = statements' ∧ rest = rest' := by
  intro statements' rest rest' hrest hrest' h
  cases statements with
  | nil =>
    cases statements' with
    | nil => exact ⟨rfl, h⟩
    | cons statement' statements' =>
      rw [listTerminals, listTerminals, List.append_assoc] at h
      exact absurd h (hrest.ne_statement statement')
  | cons statement statements =>
    cases statements' with
    | nil =>
      rw [listTerminals, listTerminals, List.append_assoc] at h
      exact absurd h.symm (hrest'.ne_statement statement)
    | cons statement' statements' =>
      rw [listTerminals, listTerminals, List.append_assoc, List.append_assoc] at h
      obtain ⟨rfl, hothers⟩ := statement.cancels statement' _ _
        (head?_listTerminals_ne hrest statements) (head?_listTerminals_ne hrest' statements') h
      obtain ⟨rfl, rest_eq⟩ := list_cancels statements statements' rest rest' hrest hrest' hothers
      exact ⟨rfl, rest_eq⟩

end

/-- A program is determined by its terminals. -/
theorem Program.terminals_injective {program program' : Program}
    (h : program.terminals = program'.terminals) : program = program' := by
  obtain ⟨blank, statements⟩ := program
  obtain ⟨blank', statements'⟩ := program'
  have closes : Closes [.endOfInput] := .inl rfl
  have lines : lineEnds blank ++ (Statement.listTerminals statements ++ [.endOfInput]) =
      lineEnds blank' ++ (Statement.listTerminals statements' ++ [.endOfInput]) := by
    simpa [terminals, lineEnds, List.replicate_succ] using h
  obtain ⟨rfl, hstatements⟩ := lineEnds_cancels _ _ _ _
    (Statement.head?_listTerminals_ne closes statements)
    (Statement.head?_listTerminals_ne closes statements') lines
  obtain ⟨rfl, -⟩ := Statement.list_cancels _ _ _ _ closes closes hstatements
  rfl

end BasicCompiler
