import BasicCompiler.Proofs.Parsing.Planning

/-!
# One token decides

`Goal.Front` is what can stand in front when a stack of goals is still to be met, and a stack is
`Predictive` if no goal could be continued by what can stand in front of the goals below it. Every
move keeps a stack predictive. Read `Planned.follow_expand`, `Planned.follow_consume` and
`Planned.follow_reject` first: if the goals stand for a phrase that begins with the current token,
the move goes on towards that phrase, and only an undeclared variable is turned away.
-/

namespace BasicCompiler

/-- The first terminal of a phrase; behind the last one stands the end of the input. -/
def Phrase.lookahead (phrase : Phrase) : Terminal :=
  phrase.terminals.headD .endOfInput

namespace Goal

/-- A terminal of the kind can stand in front when the goals are still to be met. -/
def Front (goals : List Goal) (kind : Kind) : Prop :=
  ∃ phrase, DerivesAll goals phrase ∧ phrase.lookahead.kind = kind

/-- A terminal of the kind ends every phrase of the goal: no phrase of the goal goes on with it. -/
def Follow : Goal → Kind → Prop
  | .blankLines, kind | .lines, kind => kind ≠ .lineEnd
  | .statements block, kind => kind = block.closing
  | .printed, kind | .name .assignment, kind | .expression, kind | .terms, kind =>
    kind.joins Operator.isAdditive = false ∧ kind.joins Operator.isMultiplicative = false
  | .term, kind | .factors, kind => kind.joins Operator.isMultiplicative = false
  | .condition, kind | .comparison, kind | .comparisons, kind =>
    kind.joins Operator.isComparison = false ∧ kind.joins Operator.isAdditive = false ∧
      kind.joins Operator.isMultiplicative = false
  | _, _ => True

/-- Every goal of the stack ends in front of what the goals below it begin with. -/
def Predictive : List Goal → Prop
  | [] => True
  | goal :: rest => (∀ kind, Front rest kind → goal.Follow kind) ∧ Predictive rest

/-- A goal that stands for nothing ends in front of what a phrase of the goals below it begins
with. -/
theorem Predictive.follow {goal : Goal} {rest : List Goal} (h : Predictive (goal :: rest))
    {p r : Phrase} (hr : DerivesAll rest r) {kind : Kind} (hkind : (p ++ r).lookahead.kind = kind)
    (hempty : p = .empty) : goal.Follow kind := by
  refine h.1 kind ⟨r, hr, ?_⟩
  rw [← hkind, hempty, Phrase.empty_append]

/-- No statement begins with a token that ends a block. -/
theorem Leads.ne_closing {k : Keyword} {goals : List Goal} {block : Block} (h : Leads k goals) :
    Kind.keyword k ≠ block.closing := by
  cases h with
  | print => cases block <;> simp [Block.closing]
  | guard guard => cases guard <;> cases block <;> simp [Guard.leading, Block.closing]
  | name use => cases use <;> cases block <;> simp [NameUse.leading, Block.closing]

section Fronts

variable {rest : List Goal} {kind : Kind}

/-- Where nothing is left to be met stands the end of the input. -/
theorem front_nil (h : Front [] kind) : kind = .endOfInput := by
  obtain ⟨phrase, hphrase, rfl⟩ := h
  cases hphrase
  rfl

/-- An action does not show in front. -/
theorem front_act {action : Action} (h : Front (.act action :: rest) kind) : Front rest kind := by
  obtain ⟨phrase, hphrase, rfl⟩ := h
  obtain ⟨p, q, rfl, hp, hq⟩ := derivesAll_cons.mp hphrase
  refine ⟨q, hq, ?_⟩
  cases action <;> subst hp <;> rfl

/-- In front of a reserved word stands that word. -/
theorem front_keyword {k : Keyword} (h : Front (.keyword k :: rest) kind) : kind = .keyword k := by
  obtain ⟨phrase, hphrase, rfl⟩ := h
  obtain ⟨p, q, rfl, rfl, hq⟩ := derivesAll_cons.mp hphrase
  rfl

/-- In front of line ends stands a line end. -/
theorem front_lines (h : Front (.lines :: rest) kind) : kind = .lineEnd := by
  obtain ⟨phrase, hphrase, rfl⟩ := h
  obtain ⟨p, q, rfl, ⟨count, rfl⟩, hq⟩ := derivesAll_cons.mp hphrase
  rfl

/-- In front of statements stands a reserved word or what stands behind them. -/
theorem front_statements {block : Block} (h : Front (.statements block :: rest) kind) :
    (∃ k, kind = .keyword k) ∨ Front rest kind := by
  obtain ⟨phrase, hphrase, rfl⟩ := h
  obtain ⟨p, q, rfl, hp, hq⟩ := derivesAll_cons.mp hphrase
  rcases derives_statements.mp hp with rfl | ⟨k, _, _, _, rfl, _⟩
  · exact .inr ⟨q, hq, rfl⟩
  · exact .inl ⟨k, rfl⟩

/-- In front of the first comparison stands its operator. -/
theorem front_comparison (h : Front (.comparison :: rest) kind) :
    kind.joins Operator.isComparison = true := by
  obtain ⟨phrase, hphrase, rfl⟩ := h
  obtain ⟨p, q, rfl, hp, hq⟩ := derivesAll_cons.mp hphrase
  obtain ⟨o, _, ho, rfl, _⟩ := derives_comparison.mp hp
  exact ho

/-- In front of further comparisons stands an operator or what stands behind them. -/
theorem front_comparisons (h : Front (.comparisons :: rest) kind) :
    kind.joins Operator.isComparison = true ∨ Front rest kind := by
  obtain ⟨phrase, hphrase, rfl⟩ := h
  obtain ⟨p, q, rfl, hp, hq⟩ := derivesAll_cons.mp hphrase
  rcases derives_comparisons.mp hp with rfl | ⟨o, _, ho, rfl, _⟩
  · exact .inr ⟨q, hq, rfl⟩
  · exact .inl ho

/-- In front of further terms stands an operator or what stands behind them. -/
theorem front_terms (h : Front (.terms :: rest) kind) :
    kind.joins Operator.isAdditive = true ∨ Front rest kind := by
  obtain ⟨phrase, hphrase, rfl⟩ := h
  obtain ⟨p, q, rfl, hp, hq⟩ := derivesAll_cons.mp hphrase
  rcases derives_terms.mp hp with rfl | ⟨o, _, ho, rfl, _⟩
  · exact .inr ⟨q, hq, rfl⟩
  · exact .inl ho

/-- What can stand in front of a goal can stand in front of the goals in its place. -/
theorem front_of_derives {goal : Goal} {goals : List Goal}
    (hderives : ∀ p, goal.Derives p → DerivesAll goals p) (h : Front (goal :: rest) kind) :
    Front (goals ++ rest) kind := by
  obtain ⟨phrase, hphrase, rfl⟩ := h
  obtain ⟨p, q, rfl, hp, hq⟩ := derivesAll_cons.mp hphrase
  exact ⟨p ++ q, derivesAll_append.mpr ⟨p, q, rfl, hderives p hp, hq⟩, rfl⟩

/-- In front of an operand stands a number or a name. -/
theorem front_operand (h : Front (.operand :: rest) kind) : kind = .number ∨ kind = .name := by
  obtain ⟨phrase, hphrase, rfl⟩ := h
  obtain ⟨p, q, rfl, hp, hq⟩ := derivesAll_cons.mp hphrase
  rcases derives_operand.mp hp with ⟨digits, rfl⟩ | ⟨word, rfl⟩
  · exact .inl rfl
  · exact .inr rfl

/-- No text stands in front of an expression. -/
theorem front_expression (h : Front (.expression :: rest) kind) : kind ≠ .text := by
  have hterm := front_of_derives (fun _ => derives_expression.mp) h
  have hfactor := front_of_derives (fun _ => derives_term.mp) hterm
  obtain ⟨phrase, hphrase, rfl⟩ := hfactor
  obtain ⟨p, q, rfl, hp, hq⟩ := derivesAll_cons.mp hphrase
  rcases derives_factor.mp hp with hoperand | ⟨o, _, _, rfl, _⟩
  · rcases front_operand ⟨p ++ q, .cons hoperand hq, rfl⟩ with hkind | hkind
    · simp [hkind]
    · simp [hkind]
  · intro hsame
    cases hsame

/-- A comparison is neither additive nor multiplicative. -/
theorem not_arithmetic_of_joins (h : kind.joins Operator.isComparison = true) :
    kind.joins Operator.isAdditive = false ∧ kind.joins Operator.isMultiplicative = false := by
  cases kind with
  | operator o =>
    revert h
    cases o <;> decide
  | _ => cases h

/-- An additive operator is not multiplicative. -/
theorem not_multiplicative_of_joins (h : kind.joins Operator.isAdditive = true) :
    kind.joins Operator.isMultiplicative = false := by
  cases kind with
  | operator o =>
    revert h
    cases o <;> decide
  | _ => cases h

/-- Further comparisons can stand behind an expression. -/
theorem follow_expression_of_comparisons
    (hrest : ∀ kind, Front rest kind → Follow .comparisons kind)
    (h : Front (.comparisons :: rest) kind) : Follow .expression kind := by
  rcases front_comparisons h with joins | behind
  · exact not_arithmetic_of_joins joins
  · exact (hrest kind behind).2

/-- Further terms can stand behind a term. -/
theorem follow_term_of_terms (hrest : ∀ kind, Front rest kind → Follow .terms kind)
    (h : Front (.terms :: rest) kind) : Follow .term kind := by
  rcases front_terms h with joins | behind
  · exact not_multiplicative_of_joins joins
  · exact (hrest kind behind).2

/-- Statements can stand behind line ends. -/
theorem follow_lines_of_statements {block : Block}
    (hrest : ∀ kind, Front rest kind → Follow (.statements block) kind)
    (h : Front (.statements block :: rest) kind) : Follow .lines kind := by
  rcases front_statements h with ⟨k, rfl⟩ | behind
  · simp [Follow]
  · have closing : kind = block.closing := hrest kind behind
    rw [closing]
    cases block <;> simp [Follow, Block.closing]

end Fronts

end Goal

namespace Planned

open Goal

variable {scope : Scope} {current next : Token} {goal : Goal} {goals rest : List Goal}

/-- Goals in the place of a goal keep the stack predictive. -/
theorem predictive_of_expand (h : Planned scope current next goal (.expand goals))
    (hstack : Predictive (goal :: rest)) : Predictive (goals ++ rest) := by
  obtain ⟨hfollow, hrest⟩ := hstack
  cases h with
  | noBlankLine | closed | noComparisons | noTerms | noFactors => exact hrest
  | value =>
    exact ⟨fun _ _ => trivial, fun kind front => hfollow kind (front_act front),
      fun _ _ => trivial, hrest⟩
  | condition =>
    exact ⟨fun _ front => not_arithmetic_of_joins (front_comparison front), hfollow, hrest⟩
  | expression => exact ⟨fun _ front => follow_term_of_terms hfollow front, hfollow, hrest⟩
  | term => exact ⟨fun _ _ => trivial, hfollow, hrest⟩
  | unsigned => exact ⟨fun _ _ => trivial, hrest⟩

/-- Goals behind a token keep the stack predictive. -/
theorem predictive_of_consume {text : String}
    (h : Planned scope current next goal (.consume text goals))
    (hstack : Predictive (goal :: rest)) : Predictive (goals ++ rest) := by
  obtain ⟨hfollow, hrest⟩ := hstack
  cases h with
  | blankLine | line => exact ⟨hfollow, hrest⟩
  | keyword | operator | text | number | known => exact hrest
  | @statement block _ _ _ _ hleads =>
    have hend : Predictive ([.lines, .statements block] ++ rest) :=
      ⟨fun _ front => follow_lines_of_statements hfollow front, hfollow, hrest⟩
    rw [List.append_assoc]
    cases hleads with
    | print =>
      refine ⟨fun kind front => ?_, hend⟩
      rw [front_lines front]
      exact ⟨rfl, rfl⟩
    | guard guard =>
      refine ⟨fun _ _ => trivial, fun kind front => ?_, fun _ _ => trivial, fun kind front => ?_,
        fun _ _ => trivial, fun kind front => ?_, fun _ _ => trivial, fun _ _ => trivial, hend⟩
      · rw [front_keyword front]
        exact ⟨rfl, rfl, rfl⟩
      · rcases front_statements (front_act front) with ⟨k, rfl⟩ | behind
        · simp [Follow]
        · simp [Follow, front_keyword behind]
      · rw [front_keyword front]
        cases guard <;> rfl
    | name use =>
      refine ⟨fun kind front => ?_, hend⟩
      rw [front_lines front]
      cases use with
      | assignment => exact ⟨rfl, rfl⟩
      | label | jump | input => exact trivial
  | @name use _ =>
    cases use with
    | label | jump | input => exact ⟨fun _ _ => trivial, fun _ _ => trivial, hrest⟩
    | assignment =>
      exact ⟨fun _ _ => trivial, fun _ _ => trivial,
        fun kind front => hfollow kind (front_act (front_act front)),
        fun _ _ => trivial, fun _ _ => trivial, hrest⟩
  | comparison | comparisons =>
    exact ⟨fun _ front => follow_expression_of_comparisons hfollow front, hfollow, hrest⟩
  | terms => exact ⟨fun _ front => follow_term_of_terms hfollow front, hfollow, hrest⟩
  | factors => exact ⟨fun _ _ => trivial, hfollow, hrest⟩
  | signed => exact ⟨fun _ _ => trivial, hrest⟩

/-- A phrase that begins with the current token is still one of the goals in the place of a goal. -/
theorem follow_expand (h : Planned scope current next goal (.expand goals)) {phrase : Phrase}
    (hphrase : DerivesAll (goal :: rest) phrase)
    (hlookahead : phrase.lookahead = current.terminal) : DerivesAll (goals ++ rest) phrase := by
  obtain ⟨p, q, rfl, hp, hq⟩ := derivesAll_cons.mp hphrase
  refine derivesAll_append.mpr ⟨p, q, rfl, ?_, hq⟩
  have hkind : (p ++ q).lookahead.kind = current.kind := congrArg Terminal.kind hlookahead
  cases h with
  | noBlankLine hne =>
    rcases derives_blankLines.mp hp with rfl | ⟨_, rfl, _⟩
    · exact .nil
    · exact absurd hkind.symm hne
  | closed hclosing =>
    rcases derives_statements.mp hp with rfl | ⟨k, _, _, hleads, rfl, _⟩
    · exact .nil
    · exact absurd (hkind.trans hclosing) hleads.ne_closing
  | value hne =>
    rcases derives_printed.mp hp with ⟨_, rfl⟩ | hvalue
    · exact absurd hkind.symm hne
    · exact hvalue
  | condition => exact derives_condition.mp hp
  | noComparisons hnone =>
    rcases derives_comparisons.mp hp with rfl | ⟨o, _, ho, rfl, _⟩
    · exact .nil
    · rw [← hkind] at hnone
      exact absurd ho (Bool.eq_false_iff.mp hnone)
  | expression => exact derives_expression.mp hp
  | noTerms hnone =>
    rcases derives_terms.mp hp with rfl | ⟨o, _, ho, rfl, _⟩
    · exact .nil
    · rw [← hkind] at hnone
      exact absurd ho (Bool.eq_false_iff.mp hnone)
  | term => exact derives_term.mp hp
  | noFactors hnone =>
    rcases derives_factors.mp hp with rfl | ⟨o, _, ho, rfl, _⟩
    · exact .nil
    · rw [← hkind] at hnone
      exact absurd ho (Bool.eq_false_iff.mp hnone)
  | unsigned hnone =>
    rcases derives_factor.mp hp with hoperand | ⟨o, _, ho, rfl, _⟩
    · exact derivesAll_singleton.mpr hoperand
    · rw [← hkind] at hnone
      exact absurd ho (Bool.eq_false_iff.mp hnone)

/-- Where a goal takes the current token, a phrase that begins with it goes on behind it as one of
the goals in the place of the goal. -/
theorem follow_consume {text : String}
    (h : Planned scope current next goal (.consume text goals))
    (hstack : Predictive (goal :: rest)) {phrase : Phrase}
    (hphrase : DerivesAll (goal :: rest) phrase)
    (hlookahead : phrase.lookahead = current.terminal) :
    ∃ q, phrase = goal.taken current text ++ q ∧ DerivesAll (goals ++ rest) q := by
  obtain ⟨p, r, rfl, hp, hr⟩ := derivesAll_cons.mp hphrase
  have hkind : (p ++ r).lookahead.kind = current.kind := congrArg Terminal.kind hlookahead
  -- A phrase of the goal alone is enough: had the goal stood for nothing, the current token would
  -- begin a phrase of the goals below it, and a predictive stack excludes that.
  suffices ∃ q, p = goal.taken current text ++ q ∧ DerivesAll goals q by
    obtain ⟨q, rfl, hq⟩ := this
    exact ⟨q ++ r, Phrase.append_assoc _ _ _, derivesAll_append.mpr ⟨q, r, rfl, hq, hr⟩⟩
  have hjoin : ∀ o q, p = .ofJoin o ++ q →
      p = ⟨[current.terminal], [], Fragment.binary current.text⟩ ++ q := by
    intro o q hsame
    subst hsame
    have same : Terminal.operator o = current.terminal := hlookahead
    have spelled : o.spelling = current.text := congrArg Terminal.text same
    rw [← same, ← spelled]
    rfl
  cases h with
  | blankLine hline =>
    rcases derives_blankLines.mp hp with hempty | ⟨q, rfl, hq⟩
    · exact absurd rfl (hstack.follow hr (hkind.trans hline) hempty)
    · rw [taken, ← hlookahead]
      exact ⟨q, rfl, derivesAll_singleton.mpr hq⟩
  | line =>
    obtain ⟨q, rfl, hq⟩ := derives_lines.mp hp
    rw [taken, ← hlookahead]
    exact ⟨q, rfl, derivesAll_singleton.mpr hq⟩
  | keyword | operator =>
    obtain rfl := hp
    rw [taken, ← hlookahead]
    exact ⟨.empty, rfl, .nil⟩
  | statement hne hkeyword hleads =>
    rcases derives_statements.mp hp with hempty | ⟨k, _, q, hleads', rfl, hq⟩
    · exact absurd (hstack.follow hr hkind hempty) hne
    · have same : k = _ := Kind.keyword.inj (hkind.trans hkeyword)
      have table := hleads'.ofLeading?_eq
      rw [same, hleads.ofLeading?_eq] at table
      cases table
      rw [taken, ← hlookahead]
      exact ⟨q, rfl, hq⟩
  | text htext =>
    rcases derives_printed.mp hp with ⟨word, rfl⟩ | hvalue
    · have same : word = current.text := congrArg Terminal.text hlookahead
      rw [taken, ← hlookahead, ← same]
      exact ⟨.empty, (Phrase.append_empty _).symm, .nil⟩
    · have hfront : Front _ _ := ⟨_, derivesAll_append.mpr ⟨p, r, rfl, hvalue, hr⟩, rfl⟩
      exact absurd (hkind.trans htext) (front_expression (front_act hfront))
  | name =>
    obtain ⟨word, q, rfl, hq⟩ := (derives_name current.location).mp hp
    have same : word = current.text := congrArg Terminal.text hlookahead
    rw [taken, ← hlookahead, ← same]
    exact ⟨q, rfl, hq⟩
  | comparison =>
    obtain ⟨o, q, _, hphrase, hq⟩ := derives_comparison.mp hp
    exact ⟨q, hjoin o q hphrase, hq⟩
  | comparisons hoperator ho =>
    rcases derives_comparisons.mp hp with hempty | ⟨o, q, _, hphrase, hq⟩
    · have hnone := (hstack.follow hr (hkind.trans hoperator) hempty).1
      exact absurd ho (Bool.eq_false_iff.mp hnone)
    · exact ⟨q, hjoin o q hphrase, hq⟩
  | terms hoperator ho =>
    rcases derives_terms.mp hp with hempty | ⟨o, q, _, hphrase, hq⟩
    · have hnone := (hstack.follow hr (hkind.trans hoperator) hempty).1
      exact absurd ho (Bool.eq_false_iff.mp hnone)
    · exact ⟨q, hjoin o q hphrase, hq⟩
  | factors hoperator ho =>
    rcases derives_factors.mp hp with hempty | ⟨o, q, _, hphrase, hq⟩
    · have hnone := hstack.follow hr (hkind.trans hoperator) hempty
      exact absurd ho (Bool.eq_false_iff.mp hnone)
    · exact ⟨q, hjoin o q hphrase, hq⟩
  | signed hoperator ho =>
    rcases derives_factor.mp hp with hoperand | ⟨o, q, _, rfl, hq⟩
    · have hfront := front_operand ⟨p ++ r, .cons hoperand hr, hkind.trans hoperator⟩
      exact absurd hfront (by simp)
    · have same : Terminal.operator o = current.terminal := hlookahead
      have spelled : o.spelling = current.text := congrArg Terminal.text same
      rw [taken, ← same, ← spelled]
      exact ⟨q, rfl, derivesAll_singleton.mpr hq⟩
  | number hnumber =>
    rcases derives_operand.mp hp with ⟨digits, rfl⟩ | ⟨word, rfl⟩
    · have same : digits = current.text := congrArg Terminal.text hlookahead
      rw [taken, ← hlookahead, ← same, reads, if_neg (by simp [hnumber])]
      exact ⟨.empty, (Phrase.append_empty _).symm, .nil⟩
    · cases hkind.trans hnumber
  | known hname =>
    rcases derives_operand.mp hp with ⟨digits, rfl⟩ | ⟨word, rfl⟩
    · cases hkind.trans hname
    · have same : word = current.text := congrArg Terminal.text hlookahead
      rw [taken, ← hlookahead, ← same, reads, if_pos hname, ← same]
      exact ⟨.empty, (Phrase.append_empty _).symm, .nil⟩

/-- Where a goal turns the current token away, a phrase that begins with it reads an undeclared
variable at once. -/
theorem follow_reject {diagnostic : Diagnostic}
    (h : Planned scope current next goal (.reject diagnostic))
    (hstack : Predictive (goal :: rest)) {phrase : Phrase}
    (hphrase : DerivesAll (goal :: rest) phrase)
    (hlookahead : phrase.lookahead = current.terminal) :
    ∃ name mentions, phrase.mentions = .read name :: mentions ∧ name ∉ scope.declared := by
  obtain ⟨p, r, rfl, hp, hr⟩ := derivesAll_cons.mp hphrase
  have hkind : (p ++ r).lookahead.kind = current.kind := congrArg Terminal.kind hlookahead
  cases h with
  | noLine hne =>
    obtain ⟨q, rfl, _⟩ := derives_lines.mp hp
    exact absurd hkind.symm hne
  | noKeyword hne | noOperator hne =>
    obtain rfl := hp
    exact absurd hkind.symm hne
  | unclosed hne hend =>
    rcases derives_statements.mp hp with hempty | ⟨k, _, q, _, rfl, _⟩
    · exact absurd (hstack.follow hr hkind hempty) hne
    · cases hkind.trans hend
  | noStatement hne hnone =>
    rcases derives_statements.mp hp with hempty | ⟨k, _, q, hleads, rfl, _⟩
    · exact absurd (hstack.follow hr hkind hempty) hne
    · rw [← hkind] at hnone
      exact absurd (hleads.ofLeading?_eq.symm.trans hnone) (by simp)
  | noName hne =>
    obtain ⟨word, q, rfl, _⟩ := (derives_name current.location).mp hp
    exact absurd hkind.symm hne
  | noComparison hnone =>
    obtain ⟨o, q, ho, rfl, _⟩ := derives_comparison.mp hp
    rw [← hkind] at hnone
    exact absurd ho (Bool.eq_false_iff.mp hnone)
  | unknown hname hdeclared =>
    rcases derives_operand.mp hp with ⟨digits, rfl⟩ | ⟨word, rfl⟩
    · cases hkind.trans hname
    · have same : word = current.text := congrArg Terminal.text hlookahead
      exact ⟨word, r.mentions, rfl, same ▸ hdeclared⟩
  | noOperand hnumber hname =>
    rcases front_operand ⟨p ++ r, .cons hp hr, hkind⟩ with hkind' | hkind'
    · exact absurd hkind' hnumber
    · exact absurd hkind' hname

end Planned

end BasicCompiler
