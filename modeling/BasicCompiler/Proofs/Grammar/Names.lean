import BasicCompiler.Compiler.Scope
import BasicCompiler.Proofs.Grammar.Tree

/-!
# Following the names of a program

`Names` is what is known about names at some point of a program, places aside. `Names.Admits` says
that a sequence of mentions breaks no rule from there on, checking one mention after the other.
Read `Program.scoped_iff` first: checked in this way from the beginning, and with no jump left
without its label at the end, a program follows the rules that `Program.Scoped` states for the
whole sequence at once.
-/

namespace BasicCompiler

/-- The names met so far, each list in the order in which its members were met. -/
structure Names where
  declared : List String
  labels : List String
  jumps : List String
deriving DecidableEq, Repr

/-- The names of a scope, without the places of its jumps. -/
def Scope.names (scope : Scope) : Names :=
  ⟨scope.declared, scope.labels, scope.jumps.map Prod.fst⟩

namespace Names

/-- Nothing is known. -/
def empty : Names :=
  ⟨[], [], []⟩

/-- What is known behind a mention. -/
def after (names : Names) : Mention → Names
  | .read _ => names
  | .assigned name => { names with declared := including names.declared name }
  | .label name => { names with labels := names.labels ++ [name] }
  | .jump name => { names with jumps := including names.jumps name }

/-- What is known behind some mentions. -/
def afterAll (names : Names) (mentions : List Mention) : Names :=
  mentions.foldl after names

/-- The mention breaks no rule: only a variable with a value is read, and only a new label is
declared. -/
def Allows (names : Names) : Mention → Prop
  | .read name => name ∈ names.declared
  | .label name => name ∉ names.labels
  | .assigned _ | .jump _ => True

/-- The mentions, one after the other, break no rule. -/
def Admits (names : Names) : List Mention → Prop
  | [] => True
  | mention :: mentions => names.Allows mention ∧ (names.after mention).Admits mentions

/-- Every label that is jumped to is declared. -/
def Resolved (names : Names) : Prop :=
  ∀ name ∈ names.jumps, name ∈ names.labels

/-- Two stretches of mentions are followed one after the other. -/
@[simp] theorem afterAll_append (names : Names) (first second : List Mention) :
    names.afterAll (first ++ second) = (names.afterAll first).afterAll second :=
  List.foldl_append

/-- Two stretches of mentions are checked one after the other. -/
theorem admits_append {names : Names} {first second : List Mention} :
    names.Admits (first ++ second) ↔
      names.Admits first ∧ (names.afterAll first).Admits second := by
  induction first generalizing names with
  | nil => exact ⟨fun h => ⟨trivial, h⟩, fun h => h.2⟩
  | cons mention first ih =>
    show names.Allows mention ∧ (names.after mention).Admits (first ++ second) ↔
      (names.Allows mention ∧ (names.after mention).Admits first) ∧ _
    rw [ih, and_assoc]
    exact Iff.rfl

/-- A name is among some names and one more if it is among the names or is the further one. -/
theorem mem_including {names : List String} {name other : String} :
    other ∈ including names name ↔ other ∈ names ∨ other = name := by
  unfold including
  split
  · next h =>
    constructor
    · exact Or.inl
    · intro h
      obtain h' | rfl := h
      · exact h'
      · exact h
  · simp

/-- A variable is declared behind some mentions if it was before or if one of them gives it a
value. -/
theorem mem_declared_afterAll {names : Names} {mentions : List Mention} {name : String} :
    name ∈ (names.afterAll mentions).declared ↔
      name ∈ names.declared ∨ .assigned name ∈ mentions := by
  induction mentions generalizing names with
  | nil => simp [afterAll]
  | cons mention mentions ih =>
    show name ∈ ((names.after mention).afterAll mentions).declared ↔ _
    rw [ih]
    cases mention with
    | assigned other => simp [after, mem_including, or_assoc]
    | read | label | jump => simp [after]

/-- A label is jumped to behind some mentions if it was before or if one of them jumps to it. -/
theorem mem_jumps_afterAll {names : Names} {mentions : List Mention} {name : String} :
    name ∈ (names.afterAll mentions).jumps ↔ name ∈ names.jumps ∨ .jump name ∈ mentions := by
  induction mentions generalizing names with
  | nil => simp [afterAll]
  | cons mention mentions ih =>
    show name ∈ ((names.after mention).afterAll mentions).jumps ↔ _
    rw [ih]
    cases mention with
    | jump other => simp [after, mem_including, or_assoc]
    | read | label | assigned => simp [after]

/-- The labels behind some mentions are those before and those the mentions declare. -/
theorem labels_afterAll (names : Names) (mentions : List Mention) :
    (names.afterAll mentions).labels = names.labels ++ labelNames mentions := by
  induction mentions generalizing names with
  | nil => simp [afterAll, labelNames]
  | cons mention mentions ih =>
    show ((names.after mention).afterAll mentions).labels = _
    rw [ih]
    cases mention <;> simp [after, labelNames]

/-- A name is declared as a label by some mentions if one of them is its declaration. -/
theorem mem_labelNames {mentions : List Mention} {name : String} :
    name ∈ labelNames mentions ↔ .label name ∈ mentions := by
  induction mentions with
  | nil => simp [labelNames]
  | cons mention mentions ih =>
    cases mention <;> simp_all [labelNames]

/-- Mentions are admitted if each of them is allowed behind those in front of it. -/
theorem admits_iff_forall {names : Names} {mentions : List Mention} :
    names.Admits mentions ↔ ∀ before mention after, mentions = before ++ mention :: after →
      (names.afterAll before).Allows mention := by
  induction mentions generalizing names with
  | nil =>
    refine ⟨fun _ before mention after h => ?_, fun _ => trivial⟩
    simp at h
  | cons first mentions ih =>
    show names.Allows first ∧ (names.after first).Admits mentions ↔ _
    rw [ih]
    constructor
    · intro hadmits before mention after h
      obtain ⟨hfirst, hothers⟩ := hadmits
      cases before with
      | nil =>
        obtain ⟨rfl, -⟩ := List.cons.inj h
        exact hfirst
      | cons other before =>
        obtain ⟨rfl, behind⟩ := List.cons.inj h
        exact hothers before mention after behind
    · intro h
      refine ⟨h [] first mentions rfl, fun before mention after behind => ?_⟩
      exact h (first :: before) mention after (by rw [behind, List.cons_append])

/-- Admitted mentions declare no label twice. -/
theorem Admits.nodup_labels {names : Names} {mentions : List Mention} (h : names.Admits mentions)
    (hnodup : names.labels.Nodup) : (names.afterAll mentions).labels.Nodup := by
  induction mentions generalizing names with
  | nil => exact hnodup
  | cons mention mentions ih =>
    obtain ⟨hfirst, hothers⟩ := h
    apply ih hothers
    cases mention with
    | label name =>
      refine List.nodup_append.mpr ⟨hnodup, List.pairwise_singleton _ _, ?_⟩
      intro a ha b hb hsame
      subst hsame
      rw [List.mem_singleton.mp hb] at ha
      exact hfirst ha
    | read | assigned | jump => exact hnodup

end Names

/-- Declaring a variable is following its assignment. -/
theorem Scope.names_declare (scope : Scope) (word : String) :
    (scope.declare word).names = scope.names.after (.assigned word) := by
  by_cases h : word ∈ scope.declared
  · simp [declare, names, Names.after, including, h]
  · simp [declare, names, Names.after, including, h]

/-- Noting a jump is following it. -/
theorem Scope.names_jump (scope : Scope) (word : String) (location : Location) :
    (scope.jump word location).names = scope.names.after (.jump word) := by
  by_cases h : word ∈ scope.jumps.map Prod.fst
  · simp only [jump, names, Names.after, including, h, if_true]
  · simp only [jump, names, Names.after, including, h, if_false, List.map_append, List.map_cons,
      List.map_nil]

/-- From the beginning, mentions are admitted that read a variable only behind its assignment and
declare no label twice. -/
theorem Names.admits_empty {mentions : List Mention}
    (hreads : ∀ before name after, mentions = before ++ .read name :: after →
      .assigned name ∈ before)
    (hnodup : (labelNames mentions).Nodup) : Names.empty.Admits mentions := by
  -- What is known in front of a mention is what the mentions before it say.
  rw [Names.admits_iff_forall]
  intro before mention after h
  cases mention with
  | read name => exact Names.mem_declared_afterAll.mpr (.inr (hreads before name after h))
  | label name =>
    have split : labelNames mentions = labelNames before ++ name :: labelNames after := by
      simp [h, labelNames]
    rw [split, List.nodup_append] at hnodup
    show name ∉ _
    rw [Names.labels_afterAll]
    intro hmem
    exact hnodup.2.2 name hmem name List.mem_cons_self rfl
  | assigned | jump => exact trivial

/-- A program that can be followed from its beginning and leaves no jump without its label is
scoped, and conversely. -/
theorem Program.scoped_iff {program : Program} :
    program.Scoped ↔ Names.empty.Admits program.mentions ∧
      (Names.empty.afterAll program.mentions).Resolved := by
  have labels : (Names.empty.afterAll program.mentions).labels = labelNames program.mentions :=
    Names.labels_afterAll _ _
  constructor
  · intro h
    obtain ⟨hreads, hnodup, hjumps⟩ := h
    constructor
    · exact Names.admits_empty hreads hnodup
    · intro name hname
      rcases Names.mem_jumps_afterAll.mp hname with hnone | hjump
      · cases hnone
      · rw [labels]
        exact Names.mem_labelNames.mpr (hjumps name hjump)
  · intro h
    obtain ⟨hadmits, hresolved⟩ := h
    refine ⟨?_, ?_, ?_⟩
    · intro before name after h
      have allowed := Names.admits_iff_forall.mp hadmits before _ after h
      rcases Names.mem_declared_afterAll.mp allowed with hnone | hassigned
      · cases hnone
      · exact hassigned
    · rw [← labels]
      exact hadmits.nodup_labels .nil
    · intro name hjump
      rw [← Names.mem_labelNames, ← labels]
      exact hresolved name (Names.mem_jumps_afterAll.mpr (.inr hjump))

/-- What is declared behind some mentions is what was declared and what they give a value. -/
theorem Names.declared_afterAll (names : Names) (mentions : List Mention) :
    (names.afterAll mentions).declared =
      (assignedNames mentions).foldl including names.declared := by
  induction mentions generalizing names with
  | nil => rfl
  | cons mention mentions ih =>
    show ((names.after mention).afterAll mentions).declared = _
    rw [ih]
    cases mention <;> rfl

/-- The variables of a program are those declared at its end. -/
theorem Program.variableNames_eq (program : Program) :
    program.variableNames = (Names.empty.afterAll program.mentions).declared :=
  (Names.declared_afterAll .empty program.mentions).symm

/-! ## Names and terminals -/

/-- The name that a mention is about. -/
def Mention.word : Mention → String
  | read name => name
  | assigned name => name
  | label name => name
  | jump name => name

/-- Every mention is about a name among the terminals. -/
def Named (mentions : List Mention) (terminals : List Terminal) : Prop :=
  ∀ mention ∈ mentions, .name mention.word ∈ terminals

/-- Mentions of two stretches are about names in one or the other. -/
theorem Named.append {mentions mentions' : List Mention} {terminals terminals' : List Terminal}
    (h : Named mentions terminals) (h' : Named mentions' terminals') :
    Named (mentions ++ mentions') (terminals ++ terminals') := by
  intro mention hmem
  rcases List.mem_append.mp hmem with hmem | hmem
  · exact List.mem_append_left _ (h mention hmem)
  · exact List.mem_append_right _ (h' mention hmem)

/-- A terminal in front changes nothing. -/
theorem Named.cons {mentions : List Mention} {terminals : List Terminal}
    (h : Named mentions terminals) (terminal : Terminal) : Named mentions (terminal :: terminals) :=
  fun mention hmem => List.mem_cons_of_mem _ (h mention hmem)

/-- Terminals behind change nothing. -/
theorem Named.append_right {mentions : List Mention} {terminals : List Terminal}
    (h : Named mentions terminals) (others : List Terminal) :
    Named mentions (terminals ++ others) :=
  fun mention hmem => List.mem_append_left _ (h mention hmem)

/-- A mention of the first name. -/
theorem named_singleton (mention : Mention) (terminals : List Terminal) :
    Named [mention] (.name mention.word :: terminals) := by
  intro other hmem
  rw [List.mem_singleton.mp hmem]
  exact List.mem_cons_self

/-- The variables of an operand. -/
theorem Operand.named (operand : Operand) : Named operand.mentions operand.terminals := by
  cases operand with
  | number digits =>
    intro mention hmem
    cases hmem
  | name word => exact named_singleton (.read word) []

/-- The variables of a factor. -/
theorem Factor.named (factor : Factor) : Named factor.mentions factor.terminals :=
  fun mention hmem => List.mem_append_right _ (factor.operand.named mention hmem)

section Chains

variable {joins : Operator → Bool} {Part : Type} {mentions : Part → List Mention}
  {terminals : Part → List Terminal}

/-- The variables of the links of a chain. -/
theorem Link.named (hpart : ∀ part, Named (mentions part) (terminals part))
    (links : List (Link joins Part)) :
    Named (Link.mentions mentions links) (Link.terminals terminals links) := by
  induction links with
  | nil =>
    intro mention hmem
    cases hmem
  | cons link links ih => exact ((hpart link.part).cons _).append ih

/-- The variables of a chain. -/
theorem Chain.named (hpart : ∀ part, Named (mentions part) (terminals part))
    (chain : Chain joins Part) :
    Named (Chain.mentions mentions chain) (Chain.terminals terminals chain) :=
  (hpart chain.first).append (Link.named hpart chain.links)

end Chains

/-- The variables of a term. -/
theorem Term.named (term : Term) : Named term.mentions term.terminals :=
  Chain.named Factor.named term

/-- The variables of an expression. -/
theorem Expression.named (expression : Expression) :
    Named expression.mentions expression.terminals :=
  Chain.named Term.named expression

/-- The variables of a condition. -/
theorem Condition.named (condition : Condition) :
    Named condition.mentions condition.terminals :=
  condition.first.named.append (Link.named Expression.named _)

mutual

/-- The names of a statement. -/
theorem Statement.named (statement : Statement) :
    Named statement.mentions statement.terminals := by
  cases statement with
  | printText text blank =>
    intro mention hmem
    cases hmem
  | printValue value blank => exact (value.named.cons _).append_right _
  | guarded guard condition opening body blank =>
    exact (((condition.named.cons _).append_right _).append (list_named body)).append_right _
  | label name blank => exact (named_singleton (.label name) _).cons _
  | jump name blank => exact (named_singleton (.jump name) _).cons _
  | assignment name value blank =>
    intro mention hmem
    rcases List.mem_append.mp hmem with hvalue | hname
    · exact (((value.named.cons _).cons _).cons _).append_right _ mention hvalue
    · exact (named_singleton (.assigned name) _).cons _ mention hname
  | input name blank => exact (named_singleton (.assigned name) _).cons _

/-- The names of statements in a row. -/
theorem Statement.list_named (statements : List Statement) :
    Named (listMentions statements) (listTerminals statements) := by
  cases statements with
  | nil =>
    intro mention hmem
    cases hmem
  | cons statement statements => exact statement.named.append (list_named statements)

end

/-- Every name that a program mentions is one of its terminals. -/
theorem Program.named (program : Program) : Named program.mentions program.terminals :=
  fun mention hmem => List.mem_append_left _
    (List.mem_append_right _ (Statement.list_named program.statements mention hmem))

end BasicCompiler
