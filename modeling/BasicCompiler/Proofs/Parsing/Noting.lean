import BasicCompiler.Proofs.Parsing.Trace

/-!
# What a run notes of the tokens it passes over

A label is declared and a jump is noted some moves behind the name in the source, and a run can end
in between. `Session.Phase` follows a run through these moves: it says which tokens the scope
accounts for and what is owed to the last ones. Read `Session.Moves.phase` first: from goals that
owe nothing, every run is in some phase, and `Session.Ends.jumps_eq` draws the conclusion for the
jumps.
-/

namespace BasicCompiler

/-! ## Names behind reserved words -/

/-- The names that stand directly behind the reserved word, in order. -/
def sites (k : Keyword) : List Token → List Token
  | first :: second :: rest =>
    if first.kind = .keyword k ∧ second.kind = .name then second :: sites k (second :: rest)
    else sites k (second :: rest)
  | _ => []

/-- The kind of the last token. -/
def lastKind (tokens : List Token) : Option Kind :=
  tokens.getLast?.map Token.kind

@[simp] theorem lastKind_concat (tokens : List Token) (token : Token) :
    lastKind (tokens ++ [token]) = some token.kind := by
  simp [lastKind]

/-- The last token is the one with the last number. -/
theorem lastKind_eq_some_iff {tokens : List Token} {kind : Kind} :
    lastKind tokens = some kind ↔
      ∃ i token, tokens.length = i + 1 ∧ tokens[i]? = some token ∧ token.kind = kind := by
  rw [lastKind, List.getLast?_eq_getElem?, Option.map_eq_some_iff]
  constructor
  · rintro ⟨token, htoken, hkind⟩
    have hlt := (List.getElem?_eq_some_iff.mp htoken).1
    exact ⟨tokens.length - 1, token, by omega, htoken, hkind⟩
  · rintro ⟨i, token, hlength, htoken, hkind⟩
    rw [hlength, Nat.add_sub_cancel]
    exact ⟨token, htoken, hkind⟩

/-- One more token is one more name if it is a name and the reserved word is the last token in front
of it. -/
theorem sites_concat (k : Keyword) (tokens : List Token) (token : Token) :
    sites k (tokens ++ [token]) = sites k tokens ++
      if lastKind tokens = some (.keyword k) ∧ token.kind = .name then [token] else [] := by
  induction tokens with
  | nil => simp [sites, lastKind]
  | cons first tokens ih =>
    cases tokens with
    | nil => simp [sites, lastKind]
    | cons second rest =>
      have hlast : lastKind (first :: second :: rest) = lastKind (second :: rest) := by
        simp [lastKind, List.getLast?_cons_cons]
      rw [List.cons_append] at ih
      rw [List.cons_append, List.cons_append, sites, ih, sites, hlast]
      split <;> rfl

/-- Without the reserved word in front of it, one more token is no more name. -/
theorem sites_concat_of_ne {k : Keyword} {tokens : List Token}
    (h : lastKind tokens ≠ some (.keyword k)) (token : Token) :
    sites k (tokens ++ [token]) = sites k tokens := by
  rw [sites_concat, if_neg fun hboth => h hboth.1, List.append_nil]

/-- A name among those behind the reserved word stands directly behind it. -/
theorem exists_index_of_mem_sites {k : Keyword} {tokens : List Token} {token : Token}
    (h : token ∈ sites k tokens) :
    ∃ i first, tokens[i]? = some first ∧ first.kind = .keyword k ∧
      tokens[i + 1]? = some token ∧ token.kind = .name := by
  fun_induction sites k tokens with
  | case1 first second rest hboth ih =>
    rcases List.mem_cons.mp h with rfl | hmore
    · exact ⟨0, first, rfl, hboth.1, rfl, hboth.2⟩
    · obtain ⟨i, found⟩ := ih hmore
      exact ⟨i + 1, found⟩
  | case2 first second rest _ ih =>
    obtain ⟨i, found⟩ := ih h
    exact ⟨i + 1, found⟩
  | case3 => cases h

/-- A name directly behind the reserved word is among the names behind it. -/
theorem mem_sites_of_index {k : Keyword} {tokens : List Token} {i : Nat} {first token : Token}
    (hfirst : tokens[i]? = some first) (hword : first.kind = .keyword k)
    (htoken : tokens[i + 1]? = some token) (hname : token.kind = .name) :
    token ∈ sites k tokens := by
  fun_induction sites k tokens generalizing i with
  | case1 first' second rest _ ih =>
    cases i with
    | zero =>
      cases htoken
      exact List.mem_cons_self
    | succ i => exact List.mem_cons_of_mem _ (ih hfirst htoken)
  | case2 first' second rest hneither ih =>
    cases i with
    | zero =>
      cases hfirst
      cases htoken
      exact absurd ⟨hword, hname⟩ hneither
    | succ i => exact ih hfirst htoken
  | case3 tokens hshort =>
    rcases tokens with _ | ⟨first', _ | ⟨second, rest⟩⟩
    · cases hfirst
    · cases htoken
    · exact absurd rfl (hshort first' second rest)

/-! ## The scope behind actions and tokens -/

namespace Scope

/-- The scope behind an action that is carried out. -/
def after (scope : Scope) : Action → Scope
  | .write _ => scope
  | .declare name => scope.declare name
  | .mark name _ => scope.mark name
  | .jump name location => scope.jump name location

/-- The scope with jumps to all of the names noted, in order. -/
def jumpAll (scope : Scope) (names : List Token) : Scope :=
  names.foldl (fun scope token => scope.jump token.text token.location) scope

/-- A declaration leaves jumps and labels as they are. -/
theorem declare_frame (scope : Scope) (name : String) :
    (scope.declare name).jumps = scope.jumps ∧ (scope.declare name).labels = scope.labels := by
  unfold declare
  split
  · exact ⟨rfl, rfl⟩
  · exact ⟨rfl, rfl⟩

/-- A jump leaves labels as they are. -/
@[simp] theorem labels_jump (scope : Scope) (name : String) (location : Location) :
    (scope.jump name location).labels = scope.labels := by
  unfold jump
  split
  · rfl
  · rfl

/-- Which jumps are noted depends on the jumps only. -/
theorem jumps_jump_congr {scope other : Scope} (h : scope.jumps = other.jumps) (name : String)
    (location : Location) :
    (scope.jump name location).jumps = (other.jump name location).jumps := by
  unfold jump
  rw [h]
  split
  · exact h
  · rfl

end Scope

/-- The scope accounts for the tokens that were passed over since the scope was `origin`: the jumps
and labels of the statements among them are noted, and no others. -/
structure Noted (origin : Scope) (passed : List Token) (scope : Scope) : Prop where
  jumps : scope.jumps = (origin.jumpAll (sites .GOTO passed)).jumps
  labels : scope.labels = origin.labels ++ (sites .LABEL passed).map Token.text

/-- The scope accounts for a further token that is no name behind a reserved word. -/
theorem Noted.concat {origin scope : Scope} {passed : List Token} (h : Noted origin passed scope)
    (hlast : ∀ use : NameUse, lastKind passed ≠ some (.keyword use.leading)) (token : Token) :
    Noted origin (passed ++ [token]) scope := by
  have hgoto : sites .GOTO (passed ++ [token]) = sites .GOTO passed :=
    sites_concat_of_ne (hlast .jump) token
  have hlabel : sites .LABEL (passed ++ [token]) = sites .LABEL passed :=
    sites_concat_of_ne (hlast .label) token
  refine ⟨?_, ?_⟩
  · rw [hgoto]
    exact h.jumps
  · rw [hlabel]
    exact h.labels

/-- The scope accounts for the same tokens as another one with the same jumps and labels. -/
theorem Noted.congr {origin scope other : Scope} {passed : List Token}
    (h : Noted origin passed scope) (hjumps : other.jumps = scope.jumps)
    (hlabels : other.labels = scope.labels) : Noted origin passed other :=
  ⟨hjumps.trans h.jumps, hlabels.trans h.labels⟩

/-! ## Phases -/

/-- The goal neither looks for a name, nor for the first word of a statement with a name, nor
declares a label or notes a jump. -/
def Goal.IsPlain : Goal → Prop
  | .name _ => False
  | .keyword k => ∀ use : NameUse, k ≠ use.leading
  | .act (.mark _ _) | .act (.jump _ _) => False
  | _ => True

namespace Session

open Goal

/-- Where a run is with respect to the statements that have a name. -/
inductive Phase (origin : Scope) (passed : List Token) : Scope → List Goal → Prop where
  /-- In front of, between or behind such statements. -/
  | plain {scope : Scope} {goals : List Goal} (noted : Noted origin passed scope)
      (last : ∀ use : NameUse, lastKind passed ≠ some (.keyword use.leading))
      (goals_plain : ∀ goal ∈ goals, goal.IsPlain) : Phase origin passed scope goals
  /-- Behind the first word of one. -/
  | named {scope : Scope} {use : NameUse} {rest : List Goal} (noted : Noted origin passed scope)
      (last : lastKind passed = some (.keyword use.leading))
      (rest_plain : ∀ goal ∈ rest, goal.IsPlain) : Phase origin passed scope (.name use :: rest)
  /-- Behind the name of one, with an action that is owed to the name. -/
  | owing {scope : Scope} {texts : List String} {action : Action} {rest : List Goal}
      (noted : Noted origin passed (scope.after action))
      (last : ∀ use : NameUse, lastKind passed ≠ some (.keyword use.leading))
      (rest_plain : ∀ goal ∈ rest, goal.IsPlain) :
      Phase origin passed scope (texts.map Goal.write ++ .act action :: rest)

variable {origin : Scope} {passed more : List Token} {session after : Session}
  {goals goals' : List Goal}

/-- The phases in which there is a goal to be met. -/
theorem Phase.cases_of_cons {scope : Scope} {goal : Goal} {rest : List Goal}
    (h : Phase origin passed scope (goal :: rest)) :
    (goal.IsPlain ∧ Noted origin passed scope ∧
        (∀ use : NameUse, lastKind passed ≠ some (.keyword use.leading)) ∧
        ∀ goal ∈ rest, goal.IsPlain) ∨
      (∃ use : NameUse, goal = .name use ∧ Noted origin passed scope ∧
        lastKind passed = some (.keyword use.leading) ∧ ∀ goal ∈ rest, goal.IsPlain) ∨
      (∃ text, goal = .write text ∧ Phase origin passed scope rest) ∨
      ∃ action, goal = .act action ∧ Noted origin passed (scope.after action) ∧
        (∀ use : NameUse, lastKind passed ≠ some (.keyword use.leading)) ∧
        ∀ goal ∈ rest, goal.IsPlain := by
  generalize hgoals : goal :: rest = goals at h
  cases h with
  | plain noted last goals_plain =>
    subst hgoals
    exact .inl ⟨goals_plain _ List.mem_cons_self, noted, last,
      fun goal hmem => goals_plain goal (List.mem_cons_of_mem _ hmem)⟩
  | named noted last rest_plain =>
    cases hgoals
    exact .inr (.inl ⟨_, rfl, noted, last, rest_plain⟩)
  | @owing texts action others noted last rest_plain =>
    cases texts with
    | nil =>
      cases hgoals
      exact .inr (.inr (.inr ⟨action, rfl, noted, last, rest_plain⟩))
    | cons text texts =>
      cases hgoals
      exact .inr (.inr (.inl ⟨text, rfl, .owing noted last rest_plain⟩))

/-- At a goal that is no action, the scope accounts for everything that was passed over. -/
theorem Phase.noted_of_ne_act {scope : Scope} {goal : Goal} {rest : List Goal}
    (h : Phase origin passed scope (goal :: rest)) (hact : ∀ action, goal ≠ .act action) :
    Noted origin passed scope := by
  rcases h.cases_of_cons with ⟨_, hnoted, _⟩ | ⟨_, _, hnoted, _⟩ | ⟨_, rfl, _⟩ | ⟨_, rfl, _⟩
  · exact hnoted
  · exact hnoted
  · exact absurd rfl (hact _)
  · exact absurd rfl (hact _)

/-- With no goals left, nothing is owed: the scope accounts for everything that was passed over. -/
theorem Phase.noted_of_nil {scope : Scope} (h : Phase origin passed scope []) :
    Noted origin passed scope := by
  generalize hgoals : ([] : List Goal) = goals at h
  cases h with
  | plain noted _ _ => exact noted
  | named => cases hgoals
  | @owing texts => cases texts <;> cases hgoals

/-- The goals put in the place of a plain goal are plain. -/
theorem isPlain_of_expand {scope : Scope} {current next : Token} {goal : Goal}
    (h : Planned scope current next goal (.expand goals)) : ∀ goal ∈ goals, goal.IsPlain := by
  cases h <;> simp [IsPlain]

/-- Replacing a goal keeps the phase. -/
theorem Phase.expand {goal : Goal} {rest : List Goal}
    (h : Phase origin passed session.scope (goal :: rest))
    (hplan : goal.plan session.scope session.current session.next = .expand goals) :
    Phase origin passed session.scope (goals ++ rest) := by
  have hplanned := planned_of_plan hplan
  rcases h.cases_of_cons with ⟨_, hnoted, hlast, hrest⟩ | ⟨_, rfl, _⟩ | ⟨_, rfl, _⟩ | ⟨_, rfl, _⟩
  · refine .plain hnoted hlast fun other hmem => ?_
    rcases List.mem_append.mp hmem with hmem | hmem
    · exact isPlain_of_expand hplanned other hmem
    · exact hrest other hmem
  · cases hplanned
  · cases hplanned
  · cases hplanned

/-- Carrying out an action pays what is owed, if the action is the one that is owed. -/
theorem Phase.perform {action : Action} {rest : List Goal}
    (h : Phase origin passed session.scope (.act action :: rest))
    (hdone : session.perform action = .done after) : Phase origin passed after.scope rest := by
  have hperformed := performed_of_perform hdone
  rcases h.cases_of_cons with ⟨hplain, hnoted, hlast, hrest⟩ | ⟨_, ⟨⟩, _⟩ | ⟨_, ⟨⟩, hphase⟩ |
    ⟨_, ⟨⟩, hnoted, hlast, hrest⟩
  · cases hperformed with
    | write | known => exact .plain hnoted hlast hrest
    | @fresh name _ =>
      obtain ⟨hjumps, hlabels⟩ := session.scope.declare_frame name
      exact .plain (hnoted.congr hjumps hlabels) hlast hrest
    | mark | jump => cases hplain
  · cases hperformed
    exact hphase
  · have hscope : after.scope = session.scope.after action := by
      cases hperformed with
      | known hdeclared => exact (if_pos hdeclared).symm
      | write | fresh | mark | jump => rfl
    rw [hscope]
    exact .plain hnoted hlast hrest

/-- A reserved word that is passed over leads to a name, or it is none that leads to one and the
goals behind it are plain. -/
theorem Leads.isPlain {k : Keyword} (h : Leads k goals) :
    (∃ use : NameUse, k = use.leading ∧ goals = [.name use]) ∨
      (∀ use : NameUse, k ≠ use.leading) ∧ ∀ goal ∈ goals, goal.IsPlain := by
  cases h with
  | print => exact .inr ⟨fun use => by cases use <;> simp [NameUse.leading], by simp [IsPlain]⟩
  | guard guard =>
    have hwords : ∀ use : NameUse, guard.leading ≠ use.leading ∧ guard.opening ≠ use.leading ∧
        guard.closing ≠ use.leading := by
      intro use
      cases guard <;> cases use <;> decide
    exact .inr ⟨fun use => (hwords use).1, by simp [ofGuard, IsPlain, hwords]⟩
  | name use => exact .inl ⟨use, rfl, rfl⟩

/-- Passing over a token from a plain goal leads behind the first word of a statement with a name,
or to plain goals. -/
theorem plain_or_named_of_consume {scope : Scope} {current next : Token} {goal : Goal}
    {text : String} (h : Planned scope current next goal (.consume text goals))
    (hplain : goal.IsPlain) :
    (∃ use rest, current.kind = .keyword use.leading ∧ goals = .name use :: rest ∧
        ∀ goal ∈ rest, goal.IsPlain) ∨
      (∀ use : NameUse, current.kind ≠ .keyword use.leading) ∧ ∀ goal ∈ goals, goal.IsPlain := by
  cases h with
  | @statement block _ _ _ hkind hleads =>
    have hends : ∀ goal ∈ [Goal.lines, .statements block], goal.IsPlain := by simp [IsPlain]
    rcases Leads.isPlain hleads with ⟨use, rfl, rfl⟩ | ⟨hnot, hgoals⟩
    · exact .inl ⟨use, _, hkind, rfl, hends⟩
    · refine .inr ⟨fun use => by simpa [hkind] using hnot use, fun goal hmem => ?_⟩
      rcases List.mem_append.mp hmem with hmem | hmem
      · exact hgoals goal hmem
      · exact hends goal hmem
  | keyword hkind => exact .inr ⟨fun use => by simpa [hkind] using hplain use, by simp⟩
  | name => cases hplain
  | blankLine hkind | line hkind | operator hkind | text hkind | comparison hkind
  | comparisons hkind | terms hkind | factors hkind | signed hkind | number hkind | known hkind =>
    exact .inr ⟨fun use => by simp [hkind], by simp [IsPlain]⟩

/-- Passing over a name behind the first word of its statement leaves the action that is owed to
it, if it is the name of a label or of a jump. -/
theorem Phase.name {use : NameUse} {rest : List Goal} (hnoted : Noted origin passed session.scope)
    (hlast : lastKind passed = some (.keyword use.leading))
    (hrest : ∀ goal ∈ rest, goal.IsPlain) {token : Token} (hkind : token.kind = .name) :
    Phase origin (passed ++ [token]) session.scope
      (ofName token.text token.location use ++ rest) := by
  have hname : ∀ use : NameUse, lastKind (passed ++ [token]) ≠ some (.keyword use.leading) := by
    simp [hkind]
  have hsites : ∀ k, sites k (passed ++ [token]) =
      sites k passed ++ if use.leading = k then [token] else [] := by
    intro k
    rw [sites_concat, hlast]
    simp [hkind]
  obtain ⟨hjumps, hlabels⟩ := hnoted
  cases use with
  | label =>
    have hmark : Noted origin (passed ++ [token]) (session.scope.mark token.text) := by
      refine ⟨?_, ?_⟩
      · rw [hsites, if_neg (by decide), List.append_nil]
        exact hjumps
      · rw [hsites, if_pos (by decide), List.map_append, ← List.append_assoc, ← hlabels]
        rfl
    exact @Phase.owing origin _ session.scope [] (.mark token.text token.location)
      (Goal.write (Fragment.label token.text) :: rest) hmark hname (by simpa [IsPlain] using hrest)
  | jump =>
    have hjump : Noted origin (passed ++ [token])
        (session.scope.jump token.text token.location) := by
      refine ⟨?_, ?_⟩
      · rw [hsites, if_pos (by decide), Scope.jumpAll, List.foldl_append]
        exact Scope.jumps_jump_congr hjumps _ _
      · rw [hsites, if_neg (by decide), List.append_nil, Scope.labels_jump]
        exact hlabels
    exact @Phase.owing origin _ session.scope [Fragment.jump token.text]
      (.jump token.text token.location) rest hjump hname hrest
  | assignment | input =>
    have hsame : Noted origin (passed ++ [token]) session.scope := by
      refine ⟨?_, ?_⟩
      · rw [hsites, if_neg (by decide), List.append_nil]
        exact hjumps
      · rw [hsites, if_neg (by decide), List.append_nil]
        exact hlabels
    exact .plain hsame hname (by simpa [ofName, IsPlain, or_imp, forall_and] using hrest)

/-- Passing over a token leads to the next phase. -/
theorem Phase.consume {goal : Goal} {text : String} {rest : List Goal}
    (h : Phase origin passed session.scope (goal :: rest))
    (hplan : goal.plan session.scope session.current session.next = .consume text goals)
    (hdone : (session.write text).shift = .done after) :
    Phase origin (passed ++ [session.current]) after.scope (goals ++ rest) := by
  have hplanned := planned_of_plan hplan
  rw [scope_of_shift hdone]
  rcases h.cases_of_cons with ⟨hplain, hnoted, hlast, hrest⟩ | ⟨use, rfl, hnoted, hlast, hrest⟩ |
    ⟨_, rfl, _⟩ | ⟨_, rfl, _⟩
  · have hnoted' := hnoted.concat hlast session.current
    rcases plain_or_named_of_consume hplanned hplain with
      ⟨use, others, hkind, rfl, hothers⟩ | ⟨hkind, hothers⟩
    · refine .named hnoted' (by simp [hkind]) fun goal hmem => ?_
      rcases List.mem_append.mp hmem with hmem | hmem
      · exact hothers goal hmem
      · exact hrest goal hmem
    · refine .plain hnoted' (by simpa using hkind) fun goal hmem => ?_
      rcases List.mem_append.mp hmem with hmem | hmem
      · exact hothers goal hmem
      · exact hrest goal hmem
  · cases hplanned with
    | name hkind => exact .name hnoted hlast hrest hkind
  · cases hplanned
  · cases hplanned

/-- A move leads from one phase to the next. -/
theorem Step.phase (h : Step session goals more after goals')
    (hphase : Phase origin passed session.scope goals) :
    Phase origin (passed ++ more) after.scope goals' := by
  cases h with
  | expand plan =>
    rw [List.append_nil]
    exact hphase.expand plan
  | perform done =>
    rw [List.append_nil]
    exact hphase.perform done
  | consume plan done => exact hphase.consume plan done

/-- From plain goals, every run is in some phase. -/
theorem Moves.phase (h : Moves session goals passed after goals')
    (hplain : ∀ goal ∈ goals, goal.IsPlain) :
    Phase session.scope passed after.scope goals' := by
  induction h with
  | refl => exact .plain ⟨rfl, (List.append_nil _).symm⟩ (by simp [lastKind]) hplain
  | step _ hstep ih => exact hstep.phase ih

/-- However a run ends, the jumps of the statements that were passed over are noted, and no
others. -/
theorem Ends.jumps_eq {outcome : Outcome} (h : Ends session goals outcome)
    (hphase : Phase origin passed session.scope goals) :
    outcome.session.scope.jumps = (origin.jumpAll (sites .GOTO passed)).jumps := by
  cases h with
  | done => exact hphase.noted_of_nil.jumps
  | reject plan =>
    refine (hphase.noted_of_ne_act ?_).jumps
    intro action hsame
    subst hsame
    cases plan
  | refuse stopped =>
    -- The label is owed, and marking it would leave the jumps as they are.
    obtain ⟨word, location, rfl, -, -, rfl⟩ := eq_mark_of_perform stopped
    rcases hphase.cases_of_cons with ⟨⟨⟩, _⟩ | ⟨_, ⟨⟩, _⟩ | ⟨_, ⟨⟩, _⟩ | ⟨_, ⟨⟩, hnoted, _⟩
    exact hnoted.jumps
  | fault plan stopped =>
    obtain ⟨stream, _, rfl⟩ := shift_eq_stopped stopped
    refine (hphase.noted_of_ne_act ?_).jumps
    intro action hsame
    subst hsame
    cases plan

end Session

end BasicCompiler
