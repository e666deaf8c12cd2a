import BasicCompiler.Compiler.Goal
import BasicCompiler.Proofs.Parsing.Phrase

/-!
# What goals stand for

Every goal stands for a set of phrases, given by the syntax trees of its rule: `Goal.Derives`. A
stack of goals stands for the phrases of its goals in a row: `Goal.DerivesAll`. Nothing here says
how the compiler finds a phrase. The second part takes the rules apart: a phrase of a goal is one
of the goals that a production puts in its place, behind the terminal that the production begins
with, if it begins with one.
-/

namespace BasicCompiler

namespace Goal

/-- The goal stands for the phrase. -/
def Derives : Goal → Phrase → Prop
  | .blankLines, p => ∃ count, p = .ofLines count
  | .lines, p => ∃ count, p = .ofLines (count + 1)
  | .keyword k, p => p = .ofTerminal (.keyword k)
  | .operator o, p => p = .ofTerminal (.operator o)
  | .statements _, p => ∃ statements, p = Statement.listPhrase statements
  | .printed, p =>
    (∃ text, p = ⟨[.quoted text], [], Fragment.printText text⟩) ∨
      ∃ value : Expression,
        p = .ofCode Fragment.printOpen ++ (value.phrase ++ .ofCode Fragment.printClose)
  | .name .label, p =>
    ∃ word, p = .ofTerminal (.name word) ++
      (.ofMention (.label word) ++ .ofCode (Fragment.label word))
  | .name .jump, p =>
    ∃ word, p = .ofTerminal (.name word) ++
      (.ofCode (Fragment.jump word) ++ .ofMention (.jump word))
  | .name .assignment, p =>
    ∃ (word : String) (value : Expression),
      p = .ofTerminal (.name word) ++ (.ofTerminal (.operator .assign) ++
        (.ofCode (Fragment.assignOpen word) ++ (value.phrase ++
          (.ofCode Fragment.assignClose ++ .ofMention (.assigned word)))))
  | .name .input, p =>
    ∃ word, p = .ofTerminal (.name word) ++
      (.ofMention (.assigned word) ++ .ofCode (Fragment.input word))
  | .condition, p => ∃ condition : Condition, p = condition.phrase
  | .comparison, p =>
    ∃ (link : Link Operator.isComparison Expression)
      (links : List (Link Operator.isComparison Expression)),
      p = Link.phrase Expression.phrase (link :: links)
  | .comparisons, p =>
    ∃ links : List (Link Operator.isComparison Expression), p = Link.phrase Expression.phrase links
  | .expression, p => ∃ expression : Expression, p = expression.phrase
  | .terms, p => ∃ links : List (Link Operator.isAdditive Term), p = Link.phrase Term.phrase links
  | .term, p => ∃ term : Term, p = term.phrase
  | .factors, p =>
    ∃ links : List (Link Operator.isMultiplicative Factor), p = Link.phrase Factor.phrase links
  | .factor, p => ∃ factor : Factor, p = factor.phrase
  | .operand, p => ∃ operand : Operand, p = operand.phrase
  | .act (.write text), p => p = .ofCode text
  | .act (.declare word), p => p = .ofMention (.assigned word)
  | .act (.mark word _), p => p = .ofMention (.label word)
  | .act (.jump word _), p => p = .ofMention (.jump word)

/-- The goals, one after the other, stand for the phrase. -/
inductive DerivesAll : List Goal → Phrase → Prop where
  | nil : DerivesAll [] .empty
  | cons {goal : Goal} {goals : List Goal} {p q : Phrase} (first : goal.Derives p)
      (others : DerivesAll goals q) : DerivesAll (goal :: goals) (p ++ q)

/-- A stack stands for a phrase of its first goal and then one of the others. -/
theorem derivesAll_cons {goal : Goal} {goals : List Goal} {phrase : Phrase} :
    DerivesAll (goal :: goals) phrase ↔
      ∃ p q, phrase = p ++ q ∧ goal.Derives p ∧ DerivesAll goals q := by
  constructor
  · intro h
    cases h with
    | cons first others => exact ⟨_, _, rfl, first, others⟩
  · intro h
    obtain ⟨p, q, rfl, first, others⟩ := h
    exact .cons first others

/-- Two stacks of goals, one behind the other, stand for two phrases, one behind the other. -/
theorem derivesAll_append {goals goals' : List Goal} {phrase : Phrase} :
    DerivesAll (goals ++ goals') phrase ↔
      ∃ p q, phrase = p ++ q ∧ DerivesAll goals p ∧ DerivesAll goals' q := by
  induction goals generalizing phrase with
  | nil =>
    constructor
    · intro h
      exact ⟨.empty, phrase, (Phrase.empty_append phrase).symm, .nil, h⟩
    · intro h
      obtain ⟨p, q, rfl, ⟨⟩, h⟩ := h
      rwa [Phrase.empty_append]
  | cons goal goals ih =>
    constructor
    · intro h
      cases h with
      | cons first others =>
        obtain ⟨p, q, rfl, hp, hq⟩ := ih.mp others
        exact ⟨_, q, (Phrase.append_assoc _ _ _).symm, .cons first hp, hq⟩
    · intro h
      obtain ⟨p, q, rfl, hp, hq⟩ := h
      cases hp with
      | cons first others =>
        rw [Phrase.append_assoc]
        exact .cons first (ih.mpr ⟨_, q, rfl, others, hq⟩)

/-- A single goal is a stack. -/
theorem derivesAll_singleton {goal : Goal} {phrase : Phrase} :
    DerivesAll [goal] phrase ↔ goal.Derives phrase := by
  constructor
  · intro h
    cases h with
    | cons first others =>
      cases others
      rwa [Phrase.append_empty]
  · intro h
    rw [← Phrase.append_empty phrase]
    exact .cons h .nil

/-- Two goals stand for a phrase of the first and then one of the second. -/
theorem derivesAll_pair {first second : Goal} {phrase : Phrase} :
    DerivesAll [first, second] phrase ↔
      ∃ p q, phrase = p ++ q ∧ first.Derives p ∧ second.Derives q := by
  rw [derivesAll_cons]
  simp only [derivesAll_singleton]

/-! ## The productions -/

/-- Blank lines are none, or one and then blank lines. -/
theorem derives_blankLines {phrase : Phrase} :
    Derives .blankLines phrase ↔
      phrase = .empty ∨ ∃ q, phrase = .ofTerminal .lineEnd ++ q ∧ Derives .blankLines q := by
  constructor
  · intro h
    obtain ⟨count, rfl⟩ := h
    cases count with
    | zero => exact .inl rfl
    | succ count => exact .inr ⟨.ofLines count, rfl, count, rfl⟩
  · intro h
    obtain rfl | ⟨_, rfl, count, rfl⟩ := h
    · exact ⟨0, rfl⟩
    · exact ⟨count + 1, rfl⟩

/-- Line ends are one line end and then blank lines. -/
theorem derives_lines {phrase : Phrase} :
    Derives .lines phrase ↔
      ∃ q, phrase = .ofTerminal .lineEnd ++ q ∧ Derives .blankLines q := by
  constructor
  · intro h
    obtain ⟨count, rfl⟩ := h
    exact ⟨.ofLines count, rfl, count, rfl⟩
  · intro h
    obtain ⟨_, rfl, count, rfl⟩ := h
    exact ⟨count, rfl⟩

/-- What is printed is a text, or a value between two pieces of C. -/
theorem derives_printed {phrase : Phrase} :
    Derives .printed phrase ↔
      (∃ text, phrase = ⟨[.quoted text], [], Fragment.printText text⟩) ∨
        DerivesAll [write Fragment.printOpen, .expression, write Fragment.printClose] phrase := by
  constructor
  · intro h
    obtain text | ⟨value, rfl⟩ := h
    · exact .inl text
    · exact .inr (.cons rfl (derivesAll_pair.mpr ⟨_, _, rfl, ⟨value, rfl⟩, rfl⟩))
  · intro h
    obtain text | h := h
    · exact .inl text
    · obtain ⟨_, _, rfl, rfl, hvalue⟩ := derivesAll_cons.mp h
      obtain ⟨_, _, rfl, ⟨value, rfl⟩, rfl⟩ := derivesAll_pair.mp hvalue
      exact .inr ⟨value, rfl⟩

/-- A statement with a name is the name and what the use of the name puts behind it. -/
theorem derives_name {use : NameUse} {phrase : Phrase} (location : Location) :
    Derives (.name use) phrase ↔
      ∃ word q, phrase = .ofTerminal (.name word) ++ q ∧
        DerivesAll (ofName word location use) q := by
  constructor
  · intro h
    cases use with
    | label | jump | input =>
      obtain ⟨word, rfl⟩ := h
      exact ⟨word, _, rfl, derivesAll_pair.mpr ⟨_, _, rfl, rfl, rfl⟩⟩
    | assignment =>
      obtain ⟨word, value, rfl⟩ := h
      exact ⟨word, _, rfl, .cons rfl (.cons rfl (.cons ⟨value, rfl⟩
        (derivesAll_pair.mpr ⟨_, _, rfl, rfl, rfl⟩)))⟩
  · intro h
    obtain ⟨word, _, rfl, h⟩ := h
    cases use with
    | label | jump | input =>
      obtain ⟨_, _, rfl, rfl, rfl⟩ := derivesAll_pair.mp h
      exact ⟨word, rfl⟩
    | assignment =>
      obtain ⟨_, _, rfl, rfl, hopen⟩ := derivesAll_cons.mp h
      obtain ⟨_, _, rfl, rfl, hvalue⟩ := derivesAll_cons.mp hopen
      obtain ⟨_, _, rfl, ⟨value, rfl⟩, hclose⟩ := derivesAll_cons.mp hvalue
      obtain ⟨_, _, rfl, rfl, rfl⟩ := derivesAll_pair.mp hclose
      exact ⟨word, value, rfl⟩

/-- A condition is an expression and what follows the first expression. -/
theorem derives_condition {phrase : Phrase} :
    Derives .condition phrase ↔ DerivesAll [.expression, .comparison] phrase := by
  rw [derivesAll_pair]
  constructor
  · intro h
    obtain ⟨⟨first, link, links⟩, rfl⟩ := h
    exact ⟨_, _, rfl, ⟨first, rfl⟩, link, links, rfl⟩
  · intro h
    obtain ⟨_, _, rfl, ⟨first, rfl⟩, link, links, rfl⟩ := h
    exact ⟨⟨first, link, links⟩, rfl⟩

/-- An expression is a term and what follows a term. -/
theorem derives_expression {phrase : Phrase} :
    Derives .expression phrase ↔ DerivesAll [.term, .terms] phrase := by
  rw [derivesAll_pair]
  constructor
  · intro h
    obtain ⟨⟨first, links⟩, rfl⟩ := h
    exact ⟨_, _, rfl, ⟨first, rfl⟩, links, rfl⟩
  · intro h
    obtain ⟨_, _, rfl, ⟨first, rfl⟩, links, rfl⟩ := h
    exact ⟨⟨first, links⟩, rfl⟩

/-- A term is a factor and what follows a factor. -/
theorem derives_term {phrase : Phrase} :
    Derives .term phrase ↔ DerivesAll [.factor, .factors] phrase := by
  rw [derivesAll_pair]
  constructor
  · intro h
    obtain ⟨⟨first, links⟩, rfl⟩ := h
    exact ⟨_, _, rfl, ⟨first, rfl⟩, links, rfl⟩
  · intro h
    obtain ⟨_, _, rfl, ⟨first, rfl⟩, links, rfl⟩ := h
    exact ⟨⟨first, links⟩, rfl⟩

section Chains

variable {joins : Operator → Bool} {Part : Type} {part : Part → Phrase} {item more : Goal}

/-- A link and further ones are an operator, an item and further ones. -/
theorem derives_link (hitem : ∀ p, item.Derives p ↔ ∃ x, p = part x)
    (hmore : ∀ p, more.Derives p ↔ ∃ links : List (Link joins Part), p = Link.phrase part links)
    {phrase : Phrase} :
    (∃ (link : Link joins Part) (links : List (Link joins Part)),
        phrase = Link.phrase part (link :: links)) ↔
      ∃ o q, joins o = true ∧ phrase = .ofJoin o ++ q ∧ DerivesAll [item, more] q := by
  constructor
  · intro h
    obtain ⟨⟨o, ho, x⟩, links, rfl⟩ := h
    refine ⟨o, _, ho, Link.phrase_cons part _ links, derivesAll_pair.mpr ⟨_, _, rfl, ?_, ?_⟩⟩
    · exact (hitem _).mpr ⟨x, rfl⟩
    · exact (hmore _).mpr ⟨links, rfl⟩
  · intro h
    obtain ⟨o, _, ho, rfl, h⟩ := h
    obtain ⟨_, _, rfl, hfirst, hothers⟩ := derivesAll_pair.mp h
    obtain ⟨x, rfl⟩ := (hitem _).mp hfirst
    obtain ⟨links, rfl⟩ := (hmore _).mp hothers
    exact ⟨⟨o, ho, x⟩, links, (Link.phrase_cons part ⟨o, ho, x⟩ links).symm⟩

/-- The links of a chain are none, or an operator, an item and further links. -/
theorem derives_links (hitem : ∀ p, item.Derives p ↔ ∃ x, p = part x)
    (hmore : ∀ p, more.Derives p ↔ ∃ links : List (Link joins Part), p = Link.phrase part links)
    {phrase : Phrase} :
    more.Derives phrase ↔ phrase = .empty ∨
      ∃ o q, joins o = true ∧ phrase = .ofJoin o ++ q ∧ DerivesAll [item, more] q := by
  rw [← derives_link hitem hmore, hmore]
  constructor
  · intro h
    obtain ⟨links, rfl⟩ := h
    cases links with
    | nil => exact .inl rfl
    | cons link links => exact .inr ⟨link, links, rfl⟩
  · intro h
    obtain rfl | ⟨link, links, rfl⟩ := h
    · exact ⟨[], rfl⟩
    · exact ⟨link :: links, rfl⟩

end Chains

/-- What follows the first expression of a condition is a comparison and further ones. -/
theorem derives_comparison {phrase : Phrase} :
    Derives .comparison phrase ↔
      ∃ o q, o.isComparison = true ∧ phrase = .ofJoin o ++ q ∧
        DerivesAll [.expression, .comparisons] q :=
  derives_link (fun _ => Iff.rfl) fun _ => Iff.rfl

/-- What follows a further expression of a condition is nothing or a comparison. -/
theorem derives_comparisons {phrase : Phrase} :
    Derives .comparisons phrase ↔ phrase = .empty ∨
      ∃ o q, o.isComparison = true ∧ phrase = .ofJoin o ++ q ∧
        DerivesAll [.expression, .comparisons] q :=
  derives_links (fun _ => Iff.rfl) fun _ => Iff.rfl

/-- What follows a term is nothing, or an additive operator and a term. -/
theorem derives_terms {phrase : Phrase} :
    Derives .terms phrase ↔ phrase = .empty ∨
      ∃ o q, o.isAdditive = true ∧ phrase = .ofJoin o ++ q ∧ DerivesAll [.term, .terms] q :=
  derives_links (fun _ => Iff.rfl) fun _ => Iff.rfl

/-- What follows a factor is nothing, or a multiplicative operator and a factor. -/
theorem derives_factors {phrase : Phrase} :
    Derives .factors phrase ↔ phrase = .empty ∨
      ∃ o q, o.isMultiplicative = true ∧ phrase = .ofJoin o ++ q ∧
        DerivesAll [.factor, .factors] q :=
  derives_links (fun _ => Iff.rfl) fun _ => Iff.rfl

/-- A factor is an operand, or a sign and an operand. -/
theorem derives_factor {phrase : Phrase} :
    Derives .factor phrase ↔ Derives .operand phrase ∨
      ∃ o q, o.isAdditive = true ∧ phrase = ⟨[.operator o], [], o.spelling⟩ ++ q ∧
        Derives .operand q := by
  constructor
  · intro h
    obtain ⟨⟨sign, operand⟩, rfl⟩ := h
    cases sign with
    | none => exact .inl ⟨operand, Factor.phrase_none operand⟩
    | some sign => exact .inr ⟨sign.operator, _, sign.isAdditive, rfl, operand, rfl⟩
  · intro h
    obtain ⟨operand, rfl⟩ | ⟨o, _, ho, rfl, operand, rfl⟩ := h
    · exact ⟨⟨none, operand⟩, (Factor.phrase_none operand).symm⟩
    · exact ⟨⟨some ⟨o, ho⟩, operand⟩, rfl⟩

/-- An operand is a number or a name. -/
theorem derives_operand {phrase : Phrase} :
    Derives .operand phrase ↔
      (∃ digits, phrase = ⟨[.number digits], [], digits⟩) ∨
        ∃ word, phrase = ⟨[.name word], [.read word], word⟩ := by
  constructor
  · intro h
    obtain ⟨operand, rfl⟩ := h
    cases operand with
    | number digits => exact .inl ⟨digits, rfl⟩
    | name word => exact .inr ⟨word, rfl⟩
  · intro h
    obtain ⟨digits, rfl⟩ | ⟨word, rfl⟩ := h
    · exact ⟨.number digits, rfl⟩
    · exact ⟨.name word, rfl⟩

end Goal

/-- The block that a guard governs. -/
def Guard.block : Guard → Block
  | branch => .branch
  | loop => .loop

/-- The word that a statement with a name begins with. -/
def NameUse.leading : NameUse → Keyword
  | label => .LABEL
  | jump => .GOTO
  | assignment => .LET
  | input => .INPUT

namespace Goal

/-- What a conditional or a loop consists of behind its first word. -/
def ofGuard (guard : Guard) : List Goal :=
  [write guard.fragment, condition, keyword guard.opening, lines, write Fragment.blockOpen,
    statements guard.block, keyword guard.closing, write Fragment.blockClose]

/-- A statement begins with the word of a PRINT statement, of a guard, or of a statement with a
name, and behind its first word it consists of the goals. -/
inductive Leads : Keyword → List Goal → Prop where
  | print : Leads .PRINT [printed]
  | guard (guard : Guard) : Leads guard.leading (ofGuard guard)
  | name (use : NameUse) : Leads use.leading [name use]

/-- The goals behind the word of a guard stand for conditions and blocks. -/
theorem derivesAll_ofGuard {guard : Guard} {phrase : Phrase} :
    DerivesAll (ofGuard guard) phrase ↔
      ∃ condition opening body, phrase = guard.phrase condition opening body := by
  constructor
  · intro h
    obtain ⟨_, _, rfl, rfl, hcondition⟩ := derivesAll_cons.mp h
    obtain ⟨_, _, rfl, ⟨condition, rfl⟩, hopening⟩ := derivesAll_cons.mp hcondition
    obtain ⟨_, _, rfl, rfl, hlines⟩ := derivesAll_cons.mp hopening
    obtain ⟨_, _, rfl, ⟨opening, rfl⟩, hopen⟩ := derivesAll_cons.mp hlines
    obtain ⟨_, _, rfl, rfl, hbody⟩ := derivesAll_cons.mp hopen
    obtain ⟨_, _, rfl, ⟨body, rfl⟩, hclosing⟩ := derivesAll_cons.mp hbody
    obtain ⟨_, _, rfl, rfl, rfl⟩ := derivesAll_pair.mp hclosing
    exact ⟨condition, opening, body, rfl⟩
  · intro h
    obtain ⟨condition, opening, body, rfl⟩ := h
    exact .cons rfl (.cons ⟨condition, rfl⟩ (.cons rfl (.cons ⟨opening, rfl⟩ (.cons rfl
      (.cons ⟨body, rfl⟩ (derivesAll_pair.mpr ⟨_, _, rfl, rfl, rfl⟩))))))

/-- A statement is its first word, what follows that word, and line ends. -/
theorem derives_statement {phrase : Phrase} :
    (∃ statement : Statement, phrase = statement.phrase) ↔
      ∃ k goals p count, Leads k goals ∧ DerivesAll goals p ∧
        phrase = .ofTerminal (.keyword k) ++ (p ++ .ofLines (count + 1)) := by
  constructor
  · intro h
    obtain ⟨statement, rfl⟩ := h
    cases statement with
    | printText text blank =>
      exact ⟨_, _, _, blank, .print, derivesAll_singleton.mpr (.inl ⟨text, rfl⟩),
        Statement.phrase_printText text blank⟩
    | printValue value blank =>
      exact ⟨_, _, _, blank, .print, derivesAll_singleton.mpr (.inr ⟨value, rfl⟩),
        Statement.phrase_printValue value blank⟩
    | guarded guard condition opening body blank =>
      exact ⟨_, _, _, blank, .guard guard, derivesAll_ofGuard.mpr ⟨condition, opening, body, rfl⟩,
        Statement.phrase_guarded guard condition opening body blank⟩
    | label name blank =>
      exact ⟨_, _, _, blank, .name .label, derivesAll_singleton.mpr ⟨name, rfl⟩,
        Statement.phrase_label name blank⟩
    | jump name blank =>
      exact ⟨_, _, _, blank, .name .jump, derivesAll_singleton.mpr ⟨name, rfl⟩,
        Statement.phrase_jump name blank⟩
    | assignment name value blank =>
      exact ⟨_, _, _, blank, .name .assignment, derivesAll_singleton.mpr ⟨name, value, rfl⟩,
        Statement.phrase_assignment name value blank⟩
    | input name blank =>
      exact ⟨_, _, _, blank, .name .input, derivesAll_singleton.mpr ⟨name, rfl⟩,
        Statement.phrase_input name blank⟩
  · intro h
    obtain ⟨k, goals, p, blank, hleads, h, rfl⟩ := h
    cases hleads with
    | print =>
      rcases derivesAll_singleton.mp h with ⟨text, rfl⟩ | ⟨value, rfl⟩
      · exact ⟨.printText text blank, (Statement.phrase_printText text blank).symm⟩
      · exact ⟨.printValue value blank, (Statement.phrase_printValue value blank).symm⟩
    | guard guard =>
      obtain ⟨condition, opening, body, rfl⟩ := derivesAll_ofGuard.mp h
      exact ⟨.guarded guard condition opening body blank,
        (Statement.phrase_guarded guard condition opening body blank).symm⟩
    | name use =>
      have hname := derivesAll_singleton.mp h
      cases use with
      | label =>
        obtain ⟨name, rfl⟩ := hname
        exact ⟨.label name blank, (Statement.phrase_label name blank).symm⟩
      | jump =>
        obtain ⟨name, rfl⟩ := hname
        exact ⟨.jump name blank, (Statement.phrase_jump name blank).symm⟩
      | assignment =>
        obtain ⟨name, value, rfl⟩ := hname
        exact ⟨.assignment name value blank, (Statement.phrase_assignment name value blank).symm⟩
      | input =>
        obtain ⟨name, rfl⟩ := hname
        exact ⟨.input name blank, (Statement.phrase_input name blank).symm⟩

/-- Statements are none, or a statement and then statements. -/
theorem derives_statements {block : Block} {phrase : Phrase} :
    Derives (.statements block) phrase ↔ phrase = .empty ∨
      ∃ k goals q, Leads k goals ∧ phrase = .ofTerminal (.keyword k) ++ q ∧
        DerivesAll (goals ++ [.lines, .statements block]) q := by
  constructor
  · intro h
    obtain ⟨statements, rfl⟩ := h
    cases statements with
    | nil => exact .inl rfl
    | cons statement statements =>
      obtain ⟨k, goals, p, blank, hleads, h, hphrase⟩ := derives_statement.mp ⟨statement, rfl⟩
      refine .inr ⟨k, goals, p ++ (.ofLines (blank + 1) ++ Statement.listPhrase statements),
        hleads, ?_, ?_⟩
      · rw [Statement.listPhrase_cons, hphrase, Phrase.append_assoc, Phrase.append_assoc]
      · exact derivesAll_append.mpr ⟨_, _, rfl, h,
          derivesAll_pair.mpr ⟨_, _, rfl, ⟨blank, rfl⟩, statements, rfl⟩⟩
  · intro h
    obtain rfl | ⟨k, goals, _, hleads, rfl, h⟩ := h
    · exact ⟨[], rfl⟩
    · obtain ⟨p, _, rfl, hp, hend⟩ := derivesAll_append.mp h
      obtain ⟨_, _, rfl, ⟨blank, rfl⟩, statements, rfl⟩ := derivesAll_pair.mp hend
      obtain ⟨statement, hphrase⟩ := derives_statement.mpr ⟨k, goals, p, blank, hleads, hp, rfl⟩
      refine ⟨statement :: statements, ?_⟩
      rw [Statement.listPhrase_cons, ← hphrase, Phrase.append_assoc, Phrase.append_assoc]

end Goal

end BasicCompiler
