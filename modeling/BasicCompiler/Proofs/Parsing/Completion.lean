import BasicCompiler.Proofs.Parsing.Planning

/-!
# Every stack of goals can be met

Whatever goals are open, there is a way to finish the program: the smallest phrase for each goal,
with a new name where a label is due, and at the end a label for every jump that has none. Read
`Goal.exists_completion` first. The stacks for which this works are the orderly ones, and every
move keeps a stack orderly.
-/

namespace BasicCompiler

/-- Every label that is jumped to is a name that a program can contain. -/
def Names.JumpsAreNames (names : Names) : Prop :=
  ∀ word ∈ names.jumps, (Terminal.name word).WellFormed

/-- A phrase that a program can contain where the given names are known. -/
structure Phrase.Possible (names : Names) (phrase : Phrase) : Prop where
  wellFormed : ∀ terminal ∈ phrase.terminals, terminal.WellFormed
  not_endOfInput : ∀ terminal ∈ phrase.terminals, terminal.kind ≠ .endOfInput
  jumps : ∀ word, .jump word ∈ phrase.mentions → (Terminal.name word).WellFormed
  admits : names.Admits phrase.mentions

namespace Phrase

/-- A possible phrase and one that is possible behind it are possible in a row. -/
theorem Possible.append {names : Names} {p q : Phrase} (hp : p.Possible names)
    (hq : q.Possible (names.afterAll p.mentions)) : (p ++ q).Possible names where
  wellFormed _ hmem := (List.mem_append.mp hmem).elim (hp.wellFormed _) (hq.wellFormed _)
  not_endOfInput _ hmem :=
    (List.mem_append.mp hmem).elim (hp.not_endOfInput _) (hq.not_endOfInput _)
  jumps _ hmem := (List.mem_append.mp hmem).elim (hp.jumps _) (hq.jumps _)
  admits := Names.admits_append.mpr ⟨hp.admits, hq.admits⟩

/-- A phrase without terminals and mentions is possible. -/
theorem possible_ofCode (names : Names) (code : String) : (ofCode code).Possible names :=
  ⟨List.forall_mem_nil _, List.forall_mem_nil _, by simp [ofCode], trivial⟩

/-- A phrase that is a mention is possible if the mention is allowed, and a jump is to a name. -/
theorem possible_ofMention {names : Names} {mention : Mention} (hallows : names.Allows mention)
    (hjump : ∀ word, mention = .jump word → (Terminal.name word).WellFormed) :
    (ofMention mention).Possible names := by
  refine ⟨List.forall_mem_nil _, List.forall_mem_nil _, fun word hmem => ?_, hallows, trivial⟩
  exact hjump word (List.mem_singleton.mp hmem).symm

/-- A phrase of one well-formed terminal is possible. -/
theorem possible_of_terminal (names : Names) {terminal : Terminal} (code : String)
    (hwell : terminal.WellFormed) (hend : terminal.kind ≠ .endOfInput) :
    Possible names ⟨[terminal], [], code⟩ := by
  refine ⟨fun other hmem => ?_, fun other hmem => ?_, by simp, trivial⟩
  · rw [List.mem_singleton.mp hmem]
    exact hwell
  · rw [List.mem_singleton.mp hmem]
    exact hend

end Phrase

/-- A word of lower-case letters is a name. -/
theorem wellFormed_replicate (count : Nat) :
    (Terminal.name (String.ofList (List.replicate (count + 1) 'a'))).WellFormed := by
  constructor
  · show IsWord (String.ofList _).toList
    rw [String.toList_ofList]
    refine .intro (by decide) fun c hc => ?_
    rw [List.eq_of_mem_replicate hc]
    decide
  · cases reserved : Keyword.ofSpelling? (String.ofList (List.replicate (count + 1) 'a')) with
    | none => exact reserved
    | some k =>
      have spelled := congrArg String.toList (Keyword.ofSpelling?_eq_some_iff.mp reserved)
      rw [String.toList_ofList] at spelled
      have head : k.spelling.toList.head? = some 'a' := congrArg List.head? spelled
      cases k <;> exact absurd head (by decide)

/-- There is always a name that is not in use. -/
theorem exists_fresh_name (used : List String) :
    ∃ word, (Terminal.name word).WellFormed ∧ word ∉ used := by
  refine ⟨_, wellFormed_replicate ((used.map String.length).max?.getD 0), fun hmem => ?_⟩
  have bound := List.le_max?_getD_of_mem (k := 0) (List.mem_map_of_mem (f := String.length) hmem)
  rw [String.length_ofList, List.length_replicate] at bound
  omega

/-- Behind a possible phrase the labels that are jumped to are still names. -/
theorem Phrase.Possible.jumpsAreNames {names : Names} {phrase : Phrase}
    (h : phrase.Possible names) (hnames : names.JumpsAreNames) :
    (names.afterAll phrase.mentions).JumpsAreNames := by
  intro word hword
  rcases Names.mem_jumps_afterAll.mp hword with hbefore | hjump
  · exact hnames word hbefore
  · exact h.jumps word hjump

namespace Goal

/-- The operand zero. -/
def zeroOperand : Operand :=
  .number "0"

/-- The factor zero. -/
def zeroFactor : Factor :=
  ⟨none, zeroOperand⟩

/-- The term zero. -/
def zeroTerm : Term :=
  ⟨zeroFactor, []⟩

/-- The expression zero. -/
def zeroExpression : Expression :=
  ⟨zeroTerm, []⟩

/-- A comparison with zero. -/
def zeroLink : Link Operator.isComparison Expression :=
  ⟨.equal, rfl, zeroExpression⟩

/-- The number zero is possible everywhere, whatever is written for it. -/
theorem possible_zero (names : Names) (code : String) :
    Phrase.Possible names ⟨[.number "0"], [], code⟩ :=
  Phrase.possible_of_terminal names code
    (IsNumeral.whole ⟨by decide, List.all_eq_true.mp rfl⟩) (by decide)

/-- A comparison with zero is possible everywhere. -/
theorem possible_zeroLink (names : Names) :
    (Link.phrase Expression.phrase [zeroLink]).Possible names := by
  have hoperator : (Phrase.ofJoin .equal).Possible names :=
    Phrase.possible_of_terminal names _ rfl (by simp)
  have hvalue : zeroExpression.phrase.Possible names := possible_zero names _
  rw [Link.phrase_cons, Link.phrase_nil, Phrase.append_empty]
  exact hoperator.append hvalue

/-- A statement with a name can be finished: a label gets a new name. -/
theorem exists_possible_name (use : NameUse) (names : Names) :
    ∃ phrase, Derives (.name use) phrase ∧ phrase.Possible names := by
  obtain ⟨word, hwell, hfresh⟩ := exists_fresh_name names.labels
  have hname : (Phrase.ofTerminal (.name word)).Possible names :=
    Phrase.possible_of_terminal names "" hwell (by simp)
  cases use with
  | label =>
    have hmention : (Phrase.ofMention (.label word)).Possible names :=
      Phrase.possible_ofMention hfresh (by simp)
    exact ⟨_, ⟨word, rfl⟩, hname.append (hmention.append (Phrase.possible_ofCode _ _))⟩
  | jump =>
    refine ⟨_, ⟨word, rfl⟩, hname.append
      ((Phrase.possible_ofCode _ _).append (Phrase.possible_ofMention trivial ?_))⟩
    intro other hsame
    cases hsame
    exact hwell
  | assignment =>
    have hassign : (Phrase.ofTerminal (.operator .assign)).Possible names :=
      Phrase.possible_of_terminal names _ rfl (by simp)
    have hvalue : zeroExpression.phrase.Possible names := possible_zero names _
    exact ⟨_, ⟨word, zeroExpression, rfl⟩, hname.append (hassign.append
      ((Phrase.possible_ofCode _ _).append (hvalue.append ((Phrase.possible_ofCode _ _).append
        (Phrase.possible_ofMention trivial (by simp))))))⟩
  | input =>
    have hmention : (Phrase.ofMention (.assigned word)).Possible names :=
      Phrase.possible_ofMention trivial (by simp)
    exact ⟨_, ⟨word, rfl⟩, hname.append (hmention.append (Phrase.possible_ofCode _ _))⟩

/-- The goal stands for a phrase that is possible where the given names are known, unless it is the
declaration of a label; a jump that is to be noted has to be to a name. -/
theorem exists_possible (goal : Goal) (names : Names)
    (hmark : ∀ word location, goal ≠ .act (.mark word location))
    (hjump : ∀ word location, goal = .act (.jump word location) →
      (Terminal.name word).WellFormed) :
    ∃ phrase, goal.Derives phrase ∧ phrase.Possible names := by
  have hempty : Phrase.empty.Possible names := Phrase.possible_ofCode names ""
  have hzero := possible_zero names
  have hlink := possible_zeroLink names
  cases goal with
  | blankLines => exact ⟨_, ⟨0, rfl⟩, hempty⟩
  | lines => exact ⟨_, ⟨0, rfl⟩, Phrase.possible_of_terminal names _ rfl (by simp)⟩
  | keyword k => exact ⟨_, rfl, Phrase.possible_of_terminal names _ rfl (by simp)⟩
  | operator o => exact ⟨_, rfl, Phrase.possible_of_terminal names _ rfl (by simp)⟩
  | statements block => exact ⟨_, ⟨[], rfl⟩, hempty⟩
  | printed =>
    exact ⟨_, .inl ⟨"", rfl⟩,
      Phrase.possible_of_terminal names _ (List.forall_mem_nil _) (by simp)⟩
  | name use => exact exists_possible_name use names
  | condition =>
    exact ⟨_, ⟨⟨zeroExpression, zeroLink, []⟩, rfl⟩, (hzero _).append hlink⟩
  | comparison => exact ⟨_, ⟨zeroLink, [], rfl⟩, hlink⟩
  | comparisons | terms | factors => exact ⟨_, ⟨[], rfl⟩, hempty⟩
  | expression => exact ⟨_, ⟨zeroExpression, rfl⟩, hzero _⟩
  | term => exact ⟨_, ⟨zeroTerm, rfl⟩, hzero _⟩
  | factor => exact ⟨_, ⟨zeroFactor, rfl⟩, hzero _⟩
  | operand => exact ⟨_, ⟨zeroOperand, rfl⟩, hzero _⟩
  | act action =>
    cases action with
    | write text => exact ⟨_, rfl, Phrase.possible_ofCode names text⟩
    | declare word => exact ⟨_, rfl, Phrase.possible_ofMention trivial (by simp)⟩
    | mark word location => exact absurd rfl (hmark word location)
    | jump word location =>
      refine ⟨_, rfl, Phrase.possible_ofMention trivial ?_⟩
      intro other hsame
      cases hsame
      exact hjump word location rfl

/-- Labels can be declared for all the names in a list. -/
theorem exists_labels (missing : List String)
    (hmissing : ∀ word ∈ missing, (Terminal.name word).WellFormed) (names : Names) :
    ∃ statements : List Statement, (Statement.listPhrase statements).Possible names ∧
      (names.afterAll (Statement.listMentions statements)).jumps = names.jumps ∧
      ∀ word ∈ missing, word ∈ (names.afterAll (Statement.listMentions statements)).labels := by
  induction missing generalizing names with
  | nil => exact ⟨[], Phrase.possible_ofCode names "", rfl, List.forall_mem_nil _⟩
  | cons word missing ih =>
    have hword := hmissing word List.mem_cons_self
    have hothers := fun other hother => hmissing other (List.mem_cons_of_mem word hother)
    by_cases hlabel : word ∈ names.labels
    · obtain ⟨statements, hpossible, hjumps, hlabels⟩ := ih hothers names
      refine ⟨statements, hpossible, hjumps, fun other hother => ?_⟩
      rcases List.mem_cons.mp hother with rfl | hother
      · rw [Names.labels_afterAll]
        exact List.mem_append_left _ hlabel
      · exact hlabels other hother
    · obtain ⟨statements, hpossible, hjumps, hlabels⟩ := ih hothers (names.after (.label word))
      refine ⟨.label word 0 :: statements, ?_, hjumps, fun other hother => ?_⟩
      · have hkeyword : (Phrase.ofTerminal (.keyword .LABEL)).Possible names :=
          Phrase.possible_of_terminal names _ rfl (by simp)
        have hname : (Phrase.ofTerminal (.name word)).Possible names :=
          Phrase.possible_of_terminal names _ hword (by simp)
        have hmention : (Phrase.ofMention (.label word)).Possible names :=
          Phrase.possible_ofMention hlabel (by simp)
        have hlines : (Phrase.ofLines 1).Possible (names.after (.label word)) :=
          Phrase.possible_of_terminal _ _ rfl (by simp)
        rw [Statement.listPhrase_cons, Statement.phrase_label]
        exact (hkeyword.append ((hname.append (hmention.append
          (Phrase.possible_ofCode _ _))).append hlines)).append hpossible
      · rcases List.mem_cons.mp hother with rfl | hother
        · show other ∈ ((names.after (.label other)).afterAll _).labels
          rw [Names.labels_afterAll]
          exact List.mem_append_left _ (List.mem_append_right _ List.mem_cons_self)
        · exact hlabels other hother

/-- Goals in front of the statements of a program can be met so that every label that is jumped to
is declared in the end. -/
theorem exists_completion {goals : List Goal} {names : Names} (hnames : names.JumpsAreNames)
    (hmarks : ∀ word location, .act (.mark word location) ∉ goals)
    (hjumps : ∀ word location, .act (.jump word location) ∈ goals →
      (Terminal.name word).WellFormed) :
    ∃ phrase, DerivesAll (goals ++ [.statements .program]) phrase ∧ phrase.Possible names ∧
      (names.afterAll phrase.mentions).Resolved := by
  induction goals generalizing names with
  | nil =>
    -- All that is left are the statements of the program: the labels that are missing.
    obtain ⟨statements, hpossible, hsame, hlabels⟩ := exists_labels names.jumps hnames names
    refine ⟨_, derivesAll_singleton.mpr ⟨statements, rfl⟩, hpossible, fun word hword => ?_⟩
    exact hlabels word (hsame ▸ hword)
  | cons goal goals ih =>
    obtain ⟨p, hp, hpossible⟩ := exists_possible goal names
      (fun word location h => hmarks word location (h ▸ List.mem_cons_self))
      (fun word location h => hjumps word location (h ▸ List.mem_cons_self))
    obtain ⟨q, hq, hpossible', hresolved⟩ := ih (hpossible.jumpsAreNames hnames)
      (fun word location h => hmarks word location (List.mem_cons_of_mem _ h))
      (fun word location h => hjumps word location (List.mem_cons_of_mem _ h))
    refine ⟨p ++ q, .cons hp hq, hpossible.append hpossible', ?_⟩
    rw [Phrase.mentions_append, Names.afterAll_append]
    exact hresolved

/-! ## Orderly stacks -/

/-- At the bottom of the stack stand the statements of the program, only the goal on top can be the
declaration of a label, and the jumps that are to be noted are to names. -/
structure Orderly (goals : List Goal) : Prop where
  bottom : ∀ goal, goals.getLast? = some goal → goal = .statements .program
  marks : ∀ word location, .act (.mark word location) ∉ goals.tail
  jumps : ∀ word location, .act (.jump word location) ∈ goals → (Terminal.name word).WellFormed

/-- An orderly stack stays orderly when its first goal is met. -/
theorem Orderly.tail {goal : Goal} {rest : List Goal} (h : Orderly (goal :: rest)) :
    Orderly rest := by
  refine ⟨fun last hlast => h.bottom last ?_, fun word location hmem => ?_,
    fun word location hmem => h.jumps word location (List.mem_cons_of_mem _ hmem)⟩
  · rw [List.getLast?_cons, hlast]
    rfl
  · exact h.marks word location (List.mem_of_mem_tail hmem)

/-- An orderly stack stays orderly when its first goal is replaced by others, of which only the
first can be the declaration of a label, unless it was the last one. -/
theorem Orderly.replace {goal : Goal} {goals rest : List Goal} (h : Orderly (goal :: rest))
    (hbottom : goal = .statements .program → goals = [] ∨ goals.getLast? = some goal)
    (hmarks : ∀ word location, .act (.mark word location) ∉ goals.tail)
    (hjumps : ∀ word location, .act (.jump word location) ∈ goals →
      (Terminal.name word).WellFormed) : Orderly (goals ++ rest) := by
  refine ⟨fun last hlast => ?_, fun word location hmem => ?_, fun word location hmem => ?_⟩
  · cases rest with
    | nil =>
      have hgoal := h.bottom goal rfl
      rw [List.append_nil] at hlast
      rcases hbottom hgoal with rfl | hsame
      · cases hlast
      · rw [hsame] at hlast
        cases hlast
        exact hgoal
    | cons next rest =>
      refine h.bottom last ?_
      rw [List.getLast?_append] at hlast
      simpa [List.getLast?_cons] using hlast
  · cases goals with
    | nil => exact h.marks word location (List.mem_of_mem_tail hmem)
    | cons first goals =>
      rcases List.mem_append.mp hmem with hmem | hmem
      · exact hmarks word location hmem
      · exact h.marks word location hmem
  · rcases List.mem_append.mp hmem with hmem | hmem
    · exact hjumps word location hmem
    · exact h.jumps word location (List.mem_cons_of_mem _ hmem)

end Goal

namespace Planned

open Goal

variable {scope : Scope} {current next : Token} {goal : Goal} {goals rest : List Goal}

/-- Goals in the place of a goal keep the stack orderly. -/
theorem orderly_of_expand (h : Planned scope current next goal (.expand goals))
    (hstack : Orderly (goal :: rest)) : Orderly (goals ++ rest) := by
  cases h with
  | noBlankLine | closed | noComparisons | noTerms | noFactors => exact hstack.tail
  | value | condition | expression | term | unsigned =>
    exact hstack.replace (by simp) (by simp) (by simp)

/-- Goals behind a token keep the stack orderly. -/
theorem orderly_of_consume {text : String}
    (h : Planned scope current next goal (.consume text goals))
    (hwell : current.terminal.WellFormed) (hstack : Orderly (goal :: rest)) :
    Orderly (goals ++ rest) := by
  cases h with
  | keyword | operator | text | number | known => exact hstack.tail
  | blankLine | line | comparison | comparisons | terms | factors | signed =>
    exact hstack.replace (by simp) (by simp) (by simp)
  | statement _ _ hleads =>
    refine hstack.replace (fun _ => .inr (by simp)) ?_ ?_
    · cases hleads <;> simp [ofGuard]
    · cases hleads <;> simp [ofGuard]
  | @name use hkind =>
    have hname : current.terminal = .name current.text :=
      congrArg (Terminal.mk · current.text) hkind
    refine hstack.replace (by simp) ?_ fun word location hmem => ?_
    · cases use <;> simp [ofName]
    · have hword : word = current.text := by
        cases use <;> simp_all [ofName]
      rw [hword, ← hname]
      exact hwell

/-- The program is not over when a token is taken: its statements stay at the bottom. -/
theorem append_ne_nil_of_consume {text : String}
    (h : Planned scope current next goal (.consume text goals)) (hstack : Orderly (goal :: rest)) :
    goals ++ rest ≠ [] := by
  intro hnil
  obtain ⟨hgoals, rfl⟩ := List.append_eq_nil_iff.mp hnil
  obtain rfl := hstack.bottom goal rfl
  cases h
  simp at hgoals

end Planned

end BasicCompiler
