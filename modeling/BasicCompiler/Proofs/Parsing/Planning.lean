import BasicCompiler.Proofs.Grammar.Names
import BasicCompiler.Proofs.Parsing.Derivation

/-!
# What a goal is replaced by

`Planned` lists every move that a goal can make and what the tokens in front have to be for it; the
moves of the compiler are those, `Goal.planned`. Read `Planned.derives_of_expand` and
`Planned.derives_of_consume` first: a phrase that is found after a move is a phrase that the goal
stands for.
-/

namespace BasicCompiler

/-- The kind is that of an operator of the class. -/
def Kind.joins (joins : Operator → Bool) : Kind → Bool
  | .operator o => joins o
  | _ => false

namespace Goal

/-- The table of statements holds nothing else. -/
theorem leads_of_ofLeading? {kind : Kind} {goals : List Goal} (h : ofLeading? kind = some goals) :
    ∃ k, kind = .keyword k ∧ Leads k goals := by
  unfold ofLeading? at h
  split at h
  · cases h
    exact ⟨_, rfl, .print⟩
  · cases h
    exact ⟨_, rfl, .guard .branch⟩
  · cases h
    exact ⟨_, rfl, .guard .loop⟩
  · cases h
    exact ⟨_, rfl, .name .label⟩
  · cases h
    exact ⟨_, rfl, .name .jump⟩
  · cases h
    exact ⟨_, rfl, .name .assignment⟩
  · cases h
    exact ⟨_, rfl, .name .input⟩
  · cases h

/-- The table of statements holds every statement. -/
theorem Leads.ofLeading?_eq {k : Keyword} {goals : List Goal} (h : Leads k goals) :
    ofLeading? (.keyword k) = some goals := by
  cases h with
  | print => rfl
  | guard guard => cases guard <;> rfl
  | name use => cases use <;> rfl

end Goal

open Goal in
/-- The move that a goal makes when the given tokens stand in front. -/
inductive Planned (scope : Scope) (current next : Token) : Goal → Move → Prop where
  | blankLine (h : current.kind = .lineEnd) :
      Planned scope current next .blankLines (.consume "" [.blankLines])
  | noBlankLine (h : current.kind ≠ .lineEnd) : Planned scope current next .blankLines (.expand [])
  | line (h : current.kind = .lineEnd) :
      Planned scope current next .lines (.consume "" [.blankLines])
  | noLine (h : current.kind ≠ .lineEnd) :
      Planned scope current next .lines (unexpected .lineEnd current)
  | keyword {k : Keyword} (h : current.kind = .keyword k) :
      Planned scope current next (.keyword k) (.consume "" [])
  | noKeyword {k : Keyword} (h : current.kind ≠ .keyword k) :
      Planned scope current next (.keyword k) (unexpected (.keyword k) current)
  | operator {o : Operator} (h : current.kind = .operator o) :
      Planned scope current next (.operator o) (.consume "" [])
  | noOperator {o : Operator} (h : current.kind ≠ .operator o) :
      Planned scope current next (.operator o) (unexpected (.operator o) current)
  | closed {block : Block} (h : current.kind = block.closing) :
      Planned scope current next (.statements block) (.expand [])
  | unclosed {block : Block} (h : current.kind ≠ block.closing)
      (hend : current.kind = .endOfInput) :
      Planned scope current next (.statements block) (unexpected block.closing current)
  | statement {block : Block} {k : Keyword} {goals : List Goal} (h : current.kind ≠ block.closing)
      (hkind : current.kind = .keyword k) (hleads : Leads k goals) :
      Planned scope current next (.statements block)
        (.consume "" (goals ++ [.lines, .statements block]))
  | noStatement {block : Block} {hint : Bool} (h : current.kind ≠ block.closing)
      (hleads : ofLeading? current.kind = none) :
      Planned scope current next (.statements block) (misplaced (.noStatement hint) current)
  | text (h : current.kind = .text) :
      Planned scope current next .printed (.consume (Fragment.printText current.text) [])
  | value (h : current.kind ≠ .text) :
      Planned scope current next .printed
        (.expand [write Fragment.printOpen, .expression, write Fragment.printClose])
  | name {use : NameUse} (h : current.kind = .name) :
      Planned scope current next (.name use)
        (.consume "" (ofName current.text current.location use))
  | noName {use : NameUse} (h : current.kind ≠ .name) :
      Planned scope current next (.name use) (unexpected .name current)
  | condition : Planned scope current next .condition (.expand [.expression, .comparison])
  | comparison {o : Operator} (h : current.kind = .operator o) (ho : o.isComparison = true) :
      Planned scope current next .comparison
        (.consume (Fragment.binary current.text) [.expression, .comparisons])
  | noComparison (h : current.kind.joins Operator.isComparison = false) :
      Planned scope current next .comparison (misplaced .noComparison current)
  | comparisons {o : Operator} (h : current.kind = .operator o) (ho : o.isComparison = true) :
      Planned scope current next .comparisons
        (.consume (Fragment.binary current.text) [.expression, .comparisons])
  | noComparisons (h : current.kind.joins Operator.isComparison = false) :
      Planned scope current next .comparisons (.expand [])
  | expression : Planned scope current next .expression (.expand [.term, .terms])
  | terms {o : Operator} (h : current.kind = .operator o) (ho : o.isAdditive = true) :
      Planned scope current next .terms
        (.consume (Fragment.binary current.text) [.term, .terms])
  | noTerms (h : current.kind.joins Operator.isAdditive = false) :
      Planned scope current next .terms (.expand [])
  | term : Planned scope current next .term (.expand [.factor, .factors])
  | factors {o : Operator} (h : current.kind = .operator o) (ho : o.isMultiplicative = true) :
      Planned scope current next .factors
        (.consume (Fragment.binary current.text) [.factor, .factors])
  | noFactors (h : current.kind.joins Operator.isMultiplicative = false) :
      Planned scope current next .factors (.expand [])
  | signed {o : Operator} (h : current.kind = .operator o) (ho : o.isAdditive = true) :
      Planned scope current next .factor (.consume current.text [.operand])
  | unsigned (h : current.kind.joins Operator.isAdditive = false) :
      Planned scope current next .factor (.expand [.operand])
  | number (h : current.kind = .number) :
      Planned scope current next .operand (.consume current.text [])
  | known (h : current.kind = .name) (hdeclared : current.text ∈ scope.declared) :
      Planned scope current next .operand (.consume current.text [])
  | unknown (h : current.kind = .name) (hdeclared : current.text ∉ scope.declared) :
      Planned scope current next .operand
        (.reject (.undeclaredVariable current.text current.location))
  | noOperand (h : current.kind ≠ .number) (hname : current.kind ≠ .name) :
      Planned scope current next .operand (misplaced .noOperand current)
  | act (action : Action) : Planned scope current next (.act action) (.perform action)

namespace Goal

variable {scope : Scope} {current next : Token}

/-- A chain goes on at an operator of its class and nowhere else. -/
theorem planChain_cases (joins : Operator → Bool) (part more : Goal) (current : Token)
    (otherwise : Move) :
    (∃ o, current.kind = .operator o ∧ joins o = true ∧
        planChain joins part more current otherwise =
          .consume (Fragment.binary current.text) [part, more]) ∨
      current.kind.joins joins = false ∧
        planChain joins part more current otherwise = otherwise := by
  unfold planChain
  split
  · next o h =>
    by_cases ho : joins o = true
    · exact .inl ⟨o, h, ho, if_pos ho⟩
    · refine .inr ⟨?_, if_neg ho⟩
      rw [h]
      exact Bool.eq_false_iff.mpr ho
  · next hnot =>
    refine .inr ⟨?_, rfl⟩
    cases hkind : current.kind with
    | operator o => exact absurd hkind (hnot o)
    | _ => rfl

/-- The moves of the compiler are the listed ones. -/
theorem planned (goal : Goal) (scope : Scope) (current next : Token) :
    Planned scope current next goal (goal.plan scope current next) := by
  cases goal with
  | blankLines =>
    rw [plan]
    split
    · next h => exact .blankLine h
    · next h => exact .noBlankLine h
  | lines =>
    rw [plan, require]
    split
    · next h => exact .line h
    · next h => exact .noLine h
  | keyword k =>
    rw [plan, require]
    split
    · next h => exact .keyword h
    · next h => exact .noKeyword h
  | operator o =>
    rw [plan, require]
    split
    · next h => exact .operator h
    · next h => exact .noOperator h
  | statements block =>
    rw [plan, planStatement]
    split
    · next h => exact .closed h
    · next h =>
      split
      · next hend => exact .unclosed h hend
      · split
        · next goals hleading =>
          obtain ⟨k, hkind, hleads⟩ := leads_of_ofLeading? hleading
          exact .statement h hkind hleads
        · next hleading => exact .noStatement h hleading
  | printed =>
    rw [plan]
    split
    · next h => exact .text h
    · next h => exact .value h
  | name use =>
    rw [plan, require]
    split
    · next h => exact .name h
    · next h => exact .noName h
  | condition => exact .condition
  | comparison =>
    rcases planChain_cases Operator.isComparison .expression .comparisons current
      (misplaced .noComparison current) with ⟨o, h, ho, move⟩ | ⟨h, move⟩
    · rw [plan, move]
      exact .comparison h ho
    · rw [plan, move]
      exact .noComparison h
  | comparisons =>
    rcases planChain_cases Operator.isComparison .expression .comparisons current
      (.expand []) with ⟨o, h, ho, move⟩ | ⟨h, move⟩
    · rw [plan, move]
      exact .comparisons h ho
    · rw [plan, move]
      exact .noComparisons h
  | expression => exact .expression
  | terms =>
    rcases planChain_cases Operator.isAdditive .term .terms current (.expand []) with
      ⟨o, h, ho, move⟩ | ⟨h, move⟩
    · rw [plan, move]
      exact .terms h ho
    · rw [plan, move]
      exact .noTerms h
  | term => exact .term
  | factors =>
    rcases planChain_cases Operator.isMultiplicative .factor .factors current (.expand []) with
      ⟨o, h, ho, move⟩ | ⟨h, move⟩
    · rw [plan, move]
      exact .factors h ho
    · rw [plan, move]
      exact .noFactors h
  | factor =>
    rw [plan]
    split
    · next o h =>
      split
      · next ho => exact .signed h ho
      · next ho =>
        refine .unsigned ?_
        rw [h]
        exact Bool.eq_false_iff.mpr ho
    · next hnot =>
      refine .unsigned ?_
      cases hkind : current.kind with
      | operator o => exact absurd hkind (hnot o)
      | _ => rfl
  | operand =>
    rw [plan]
    split
    · next h => exact .number h
    · next h =>
      split
      · next hdeclared => exact .known h hdeclared
      · next hdeclared => exact .unknown h hdeclared
    · next hnumber hname => exact .noOperand hnumber hname
  | act action => exact .act action

/-- A move that the compiler makes is one of the listed ones. -/
theorem planned_of_plan {goal : Goal} {move : Move} (h : goal.plan scope current next = move) :
    Planned scope current next goal move := by
  rw [← h]
  exact goal.planned scope current next

/-- What a goal reads when it passes over a token: an operand can be a variable. -/
def reads : Goal → Token → List Mention
  | .operand, token => if token.kind = .name then [.read token.text] else []
  | _, _ => []

/-- Reading a variable leaves the names as they are. -/
@[simp] theorem afterAll_reads (goal : Goal) (token : Token) (names : Names) :
    names.afterAll (goal.reads token) = names := by
  unfold reads
  split
  · split <;> rfl
  · rfl

/-- What a goal takes when it passes over a token and writes a text. -/
def taken (goal : Goal) (token : Token) (text : String) : Phrase :=
  ⟨[token.terminal], goal.reads token, text⟩

end Goal

namespace Planned

open Goal

variable {scope : Scope} {current next : Token} {goal : Goal} {goals : List Goal}

/-- A variable is taken only if it has a value. -/
theorem admits_reads {text : String} (h : Planned scope current next goal (.consume text goals)) :
    scope.names.Admits (goal.reads current) := by
  cases h with
  | number hkind =>
    rw [reads, if_neg (by simp [hkind])]
    exact trivial
  | known hkind hdeclared =>
    rw [reads, if_pos hkind]
    exact ⟨hdeclared, trivial⟩
  | _ => exact trivial

/-- What the goals put in the place of a goal stand for, the goal stands for. -/
theorem derives_of_expand (h : Planned scope current next goal (.expand goals)) {phrase : Phrase}
    (hphrase : DerivesAll goals phrase) : goal.Derives phrase := by
  cases h with
  | noBlankLine =>
    cases hphrase
    exact ⟨0, rfl⟩
  | closed | noComparisons | noTerms | noFactors =>
    cases hphrase
    exact ⟨[], rfl⟩
  | value => exact derives_printed.mpr (.inr hphrase)
  | condition => exact derives_condition.mpr hphrase
  | expression => exact derives_expression.mpr hphrase
  | term => exact derives_term.mpr hphrase
  | unsigned => exact derives_factor.mpr (.inl (derivesAll_singleton.mp hphrase))

/-- What a goal takes with a token, and what the goals put in its place behind the token stand for,
the goal stands for. -/
theorem derives_of_consume {text : String}
    (h : Planned scope current next goal (.consume text goals))
    (hwell : current.terminal.WellFormed) {phrase : Phrase} (hphrase : DerivesAll goals phrase) :
    goal.Derives (goal.taken current text ++ phrase) := by
  -- Line ends, words and operators are known by their kinds; the other kinds have free texts.
  obtain ⟨-, hlineEnd, hkeyword, hoperator⟩ := hwell.eq_of_kind
  have hspelling : ∀ o, current.kind = .operator o → current.text = o.spelling := fun o hkind =>
    congrArg Terminal.text (hoperator o hkind)
  have hjoin : ∀ o, current.kind = .operator o →
      (⟨[current.terminal], [], Fragment.binary current.text⟩ : Phrase) = .ofJoin o := by
    intro o hkind
    rw [hoperator o hkind, hspelling o hkind]
    rfl
  have hname : current.kind = .name → current.terminal = .name current.text := fun hkind =>
    congrArg (Terminal.mk · current.text) hkind
  cases h with
  | blankLine hkind =>
    rw [taken, hlineEnd hkind]
    exact derives_blankLines.mpr (.inr ⟨phrase, rfl, derivesAll_singleton.mp hphrase⟩)
  | line hkind =>
    rw [taken, hlineEnd hkind]
    exact derives_lines.mpr ⟨phrase, rfl, derivesAll_singleton.mp hphrase⟩
  | keyword hkind =>
    cases hphrase
    rw [taken, hkeyword _ hkind, Phrase.append_empty]
    rfl
  | operator hkind =>
    cases hphrase
    rw [taken, hoperator _ hkind, Phrase.append_empty]
    rfl
  | statement _ hkind hleads =>
    rw [taken, hkeyword _ hkind]
    exact derives_statements.mpr (.inr ⟨_, _, phrase, hleads, rfl, hphrase⟩)
  | text hkind =>
    cases hphrase
    have quoted : current.terminal = .quoted current.text :=
      congrArg (Terminal.mk · current.text) hkind
    rw [taken, quoted, Phrase.append_empty]
    exact .inl ⟨_, rfl⟩
  | name hkind =>
    rw [taken, hname hkind]
    exact (derives_name current.location).mpr ⟨_, phrase, rfl, hphrase⟩
  | comparison hkind ho =>
    exact derives_comparison.mpr ⟨_, phrase, ho, congrArg (· ++ phrase) (hjoin _ hkind), hphrase⟩
  | comparisons hkind ho =>
    exact derives_comparisons.mpr
      (.inr ⟨_, phrase, ho, congrArg (· ++ phrase) (hjoin _ hkind), hphrase⟩)
  | terms hkind ho =>
    exact derives_terms.mpr
      (.inr ⟨_, phrase, ho, congrArg (· ++ phrase) (hjoin _ hkind), hphrase⟩)
  | factors hkind ho =>
    exact derives_factors.mpr
      (.inr ⟨_, phrase, ho, congrArg (· ++ phrase) (hjoin _ hkind), hphrase⟩)
  | signed hkind ho =>
    refine derives_factor.mpr (.inr ⟨_, phrase, ho, ?_, derivesAll_singleton.mp hphrase⟩)
    rw [taken, hoperator _ hkind, hspelling _ hkind]
    rfl
  | number hkind =>
    cases hphrase
    have numeral : current.terminal = .number current.text :=
      congrArg (Terminal.mk · current.text) hkind
    rw [taken, numeral, Phrase.append_empty, reads, if_neg (by simp [hkind])]
    exact derives_operand.mpr (.inl ⟨_, rfl⟩)
  | known hkind _ =>
    cases hphrase
    rw [taken, hname hkind, Phrase.append_empty, reads, if_pos hkind]
    exact derives_operand.mpr (.inr ⟨_, rfl⟩)

end Planned

end BasicCompiler
