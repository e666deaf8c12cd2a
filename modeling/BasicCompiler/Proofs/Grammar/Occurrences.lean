import BasicCompiler.Proofs.Grammar.Names

/-!
# Names among the terminals

What a syntax tree says about names can be seen from its terminals alone: a name behind LET or
INPUT gets a value, a name behind LABEL is a label, and the names of an expression are read. Read
`Program.namesBehind_terminals` first; `targets` and `labels` are its two uses.
-/

namespace BasicCompiler

/-- The names that stand directly behind one of the reserved words, in order. -/
def namesBehind (keywords : List Keyword) : List Terminal → List String
  | [] => []
  | first :: rest =>
    match first.kind, rest with
    | .keyword k, ⟨.name, word⟩ :: _ =>
      if k ∈ keywords then word :: namesBehind keywords rest else namesBehind keywords rest
    | _, _ => namesBehind keywords rest

/-- The variables that LET and INPUT statements give a value, in order, once for each time. No
such statement stands inside another one, so this is also the order in which they end. -/
def targets (terminals : List Terminal) : List String :=
  namesBehind [.LET, .INPUT] terminals

/-- The names of the LABEL statements, in order. -/
def labels (terminals : List Terminal) : List String :=
  namesBehind [.LABEL] terminals

/-- The names among some terminals. -/
def namesIn (terminals : List Terminal) : List String :=
  terminals.filterMap fun terminal => if terminal.kind = .name then some terminal.text else none

section NamesBehind

variable {keywords : List Keyword}

/-- A terminal that is no reserved word has no name behind it. -/
theorem namesBehind_cons {first : Terminal} (h : ∀ k, first.kind ≠ .keyword k)
    (rest : List Terminal) :
    namesBehind keywords (first :: rest) = namesBehind keywords rest := by
  rw [namesBehind]
  intro k word more hkind
  exact absurd hkind (h k)

/-- Terminals without a reserved word have no names behind one. -/
theorem namesBehind_append {terminals : List Terminal}
    (h : ∀ t ∈ terminals, ∀ k, t.kind ≠ .keyword k) (rest : List Terminal) :
    namesBehind keywords (terminals ++ rest) = namesBehind keywords rest := by
  induction terminals with
  | nil => rfl
  | cons first terminals ih =>
    obtain ⟨hfirst, hothers⟩ := List.forall_mem_cons.mp h
    rw [List.cons_append, namesBehind_cons hfirst, ih hothers]

/-- A name behind a reserved word is among the names if the word is among the words. -/
theorem namesBehind_keyword_name (k : Keyword) (word : String) (rest : List Terminal) :
    namesBehind keywords (.keyword k :: .name word :: rest) =
      (if k ∈ keywords then [word] else []) ++ namesBehind keywords rest := by
  have hname : namesBehind keywords (.name word :: rest) = namesBehind keywords rest :=
    namesBehind_cons (fun _ => Kind.noConfusion) rest
  show (if k ∈ keywords then word :: namesBehind keywords (.name word :: rest)
    else namesBehind keywords (.name word :: rest)) = _
  rw [hname]
  split
  · rfl
  · rfl

/-- A reserved word that is not among the words has no names behind it. -/
theorem namesBehind_keyword {k : Keyword} (h : k ∉ keywords) (rest : List Terminal) :
    namesBehind keywords (.keyword k :: rest) = namesBehind keywords rest := by
  conv =>
    lhs
    unfold namesBehind
  split
  · next hkind =>
    cases hkind
    rw [if_neg h]
  · rfl

/-- Line ends have no names behind them. -/
theorem namesBehind_lineEnds (blank : Nat) (rest : List Terminal) :
    namesBehind keywords (lineEnds blank ++ rest) = namesBehind keywords rest := by
  refine namesBehind_append (fun t ht k => ?_) rest
  rw [List.eq_of_mem_replicate ht]
  exact Kind.noConfusion

end NamesBehind

/-! ## Expressions and conditions -/

/-- There is no reserved word among the terminals, and the mentions are that their names are
read. -/
structure ReadsNames (terminals : List Terminal) (mentions : List Mention) : Prop where
  not_keyword : ∀ t ∈ terminals, ∀ k, t.kind ≠ .keyword k
  mentions_eq : mentions = (namesIn terminals).map .read

/-- Two stretches that only read. -/
theorem ReadsNames.append {terminals terminals' : List Terminal} {mentions mentions' : List Mention}
    (h : ReadsNames terminals mentions) (h' : ReadsNames terminals' mentions') :
    ReadsNames (terminals ++ terminals') (mentions ++ mentions') := by
  refine ⟨List.forall_mem_append.mpr ⟨h.not_keyword, h'.not_keyword⟩, ?_⟩
  have hnames : namesIn (terminals ++ terminals') = namesIn terminals ++ namesIn terminals' :=
    List.filterMap_append
  rw [h.mentions_eq, h'.mentions_eq, hnames, List.map_append]

/-- An operator is nothing that is read. -/
theorem readsNames_operator (o : Operator) : ReadsNames [.operator o] [] := by
  refine ⟨fun t ht k => ?_, rfl⟩
  rw [List.mem_singleton.mp ht]
  exact Kind.noConfusion

/-- An operand is read if it is a name. -/
theorem Operand.readsNames (operand : Operand) :
    ReadsNames operand.terminals operand.mentions := by
  cases operand with
  | number digits => exact ⟨by simp [terminals, Terminal.number], rfl⟩
  | name word => exact ⟨by simp [terminals, Terminal.name], rfl⟩

/-- A sign is nothing that is read. -/
theorem Factor.readsNames (factor : Factor) : ReadsNames factor.terminals factor.mentions := by
  obtain ⟨sign, operand⟩ := factor
  cases sign with
  | none => exact operand.readsNames
  | some sign => exact (readsNames_operator sign.operator).append operand.readsNames

section Chains

variable {joins : Operator → Bool} {Part : Type} {terminals : Part → List Terminal}
  {mentions : Part → List Mention}

/-- Links read what their parts read. -/
theorem Link.readsNames (hpart : ∀ part, ReadsNames (terminals part) (mentions part))
    (links : List (Link joins Part)) :
    ReadsNames (Link.terminals terminals links) (Link.mentions mentions links) := by
  induction links with
  | nil => exact ⟨List.forall_mem_nil _, rfl⟩
  | cons link links ih =>
    exact ((readsNames_operator link.operator).append (hpart link.part)).append ih

/-- A chain reads what its parts read. -/
theorem Chain.readsNames (hpart : ∀ part, ReadsNames (terminals part) (mentions part))
    (chain : Chain joins Part) :
    ReadsNames (Chain.terminals terminals chain) (Chain.mentions mentions chain) :=
  (hpart chain.first).append (Link.readsNames hpart chain.links)

end Chains

/-- A term reads its names. -/
theorem Term.readsNames (term : Term) : ReadsNames term.terminals term.mentions :=
  Chain.readsNames Factor.readsNames term

/-- An expression reads its names. -/
theorem Expression.readsNames (expression : Expression) :
    ReadsNames expression.terminals expression.mentions :=
  Chain.readsNames Term.readsNames expression

/-- A condition reads its names. -/
theorem Condition.readsNames (condition : Condition) :
    ReadsNames condition.terminals condition.mentions :=
  condition.first.readsNames.append (Link.readsNames Expression.readsNames _)

/-! ## Statements -/

/-- The reserved words are those with which a choice of mentions begins: none for a variable that
is read, and both LET and INPUT, or none of them, for a variable that gets a value. -/
structure Introduces (keywords : List Keyword) (pick : Mention → Option String) : Prop where
  read : ∀ word, pick (.read word) = none
  label : ∀ word, pick (.label word) = if .LABEL ∈ keywords then some word else none
  jump : ∀ word, pick (.jump word) = if .GOTO ∈ keywords then some word else none
  assignment : ∀ word, pick (.assigned word) = if .LET ∈ keywords then some word else none
  input : ∀ word, pick (.assigned word) = if .INPUT ∈ keywords then some word else none
  print : .PRINT ∉ keywords
  guard : ∀ guard : Guard, guard.leading ∉ keywords
  opening : ∀ guard : Guard, guard.opening ∉ keywords
  closing : ∀ guard : Guard, guard.closing ∉ keywords

section Introduces

variable {keywords : List Keyword} {pick : Mention → Option String}

/-- What only reads chooses no names. -/
theorem Introduces.filterMap_eq_nil (h : Introduces keywords pick) {terminals : List Terminal}
    {mentions : List Mention} (hreads : ReadsNames terminals mentions) :
    mentions.filterMap pick = [] := by
  rw [hreads.mentions_eq, List.filterMap_eq_nil_iff]
  intro mention hmem
  obtain ⟨word, -, rfl⟩ := List.mem_map.mp hmem
  exact h.read word

mutual

/-- The names behind the words of a statement are those of the mentions. -/
theorem Statement.namesBehind_terminals (h : Introduces keywords pick) (statement : Statement)
    (rest : List Terminal) :
    namesBehind keywords (statement.terminals ++ rest) =
      statement.mentions.filterMap pick ++ namesBehind keywords rest := by
  cases statement with
  | printText text blank =>
    rw [terminals, List.cons_append, namesBehind_keyword h.print, List.cons_append,
      namesBehind_cons (fun _ => Kind.noConfusion), namesBehind_lineEnds]
    rfl
  | printValue value blank =>
    rw [terminals, List.cons_append, List.cons_append, namesBehind_keyword h.print,
      List.append_assoc, namesBehind_append value.readsNames.not_keyword, namesBehind_lineEnds,
      mentions, h.filterMap_eq_nil value.readsNames]
    rfl
  | guarded guard condition opening body blank =>
    have hterminals : (Statement.guarded guard condition opening body blank).terminals ++ rest =
        .keyword guard.leading :: (condition.terminals ++ .keyword guard.opening ::
          (lineEnds opening ++ (listTerminals body ++ .keyword guard.closing ::
            (lineEnds blank ++ rest)))) := by
      simp [terminals]
    rw [hterminals, namesBehind_keyword (h.guard guard),
      namesBehind_append condition.readsNames.not_keyword, namesBehind_keyword (h.opening guard),
      namesBehind_lineEnds, list_namesBehind_terminals h body,
      namesBehind_keyword (h.closing guard), namesBehind_lineEnds, mentions,
      List.filterMap_append, h.filterMap_eq_nil condition.readsNames]
    rfl
  | label name blank =>
    rw [terminals, List.cons_append, List.cons_append, namesBehind_keyword_name,
      namesBehind_lineEnds, mentions, List.filterMap_cons, h.label]
    split <;> rfl
  | jump name blank =>
    rw [terminals, List.cons_append, List.cons_append, namesBehind_keyword_name,
      namesBehind_lineEnds, mentions, List.filterMap_cons, h.jump]
    split <;> rfl
  | assignment name value blank =>
    have hassign : ∀ k, (Terminal.operator .assign).kind ≠ .keyword k := fun _ => Kind.noConfusion
    rw [terminals, List.append_assoc, List.cons_append, List.cons_append, List.cons_append,
      namesBehind_keyword_name, namesBehind_cons hassign,
      namesBehind_append value.readsNames.not_keyword, namesBehind_lineEnds, mentions,
      List.filterMap_append, h.filterMap_eq_nil value.readsNames, List.filterMap_cons,
      h.assignment]
    split <;> rfl
  | input name blank =>
    rw [terminals, List.cons_append, List.cons_append, namesBehind_keyword_name,
      namesBehind_lineEnds, mentions, List.filterMap_cons, h.input]
    split <;> rfl

/-- The names behind the words of statements in a row are those of the mentions. -/
theorem Statement.list_namesBehind_terminals (h : Introduces keywords pick)
    (statements : List Statement) (rest : List Terminal) :
    namesBehind keywords (listTerminals statements ++ rest) =
      (listMentions statements).filterMap pick ++ namesBehind keywords rest := by
  cases statements with
  | nil => rfl
  | cons statement statements =>
    rw [listTerminals, List.append_assoc, statement.namesBehind_terminals h,
      list_namesBehind_terminals h statements, listMentions, List.filterMap_append,
      List.append_assoc]

end

/-- The names behind the words of a program are those of the mentions. -/
theorem Program.namesBehind_terminals (h : Introduces keywords pick) (program : Program) :
    namesBehind keywords program.terminals = program.mentions.filterMap pick := by
  have hlines : ∀ t ∈ List.replicate program.blank Terminal.lineEnd, ∀ k, t.kind ≠ .keyword k := by
    intro t ht k
    rw [List.eq_of_mem_replicate ht]
    exact Kind.noConfusion
  rw [terminals, List.append_assoc, namesBehind_append hlines,
    Statement.list_namesBehind_terminals h]
  exact List.append_nil _

end Introduces

/-- The variables that get a value are the names behind LET and INPUT. -/
theorem Program.targets_terminals (program : Program) :
    targets program.terminals = assignedNames program.mentions := by
  refine program.namesBehind_terminals ⟨fun _ => rfl, fun _ => rfl, fun _ => rfl, fun _ => rfl,
    fun _ => rfl, by decide, fun guard => ?_, fun guard => ?_, fun guard => ?_⟩
  all_goals cases guard <;> decide

/-- The labels are the names behind LABEL. -/
theorem Program.labels_terminals (program : Program) :
    labels program.terminals = labelNames program.mentions := by
  refine program.namesBehind_terminals ⟨fun _ => rfl, fun _ => rfl, fun _ => rfl, fun _ => rfl,
    fun _ => rfl, by decide, fun guard => ?_, fun guard => ?_, fun guard => ?_⟩
  all_goals cases guard <;> decide

end BasicCompiler
