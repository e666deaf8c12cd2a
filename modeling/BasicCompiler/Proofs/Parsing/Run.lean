import BasicCompiler.Proofs.Parsing.Trace

/-!
# Runs of the compiler

What a whole run does, by induction over its moves. Read `Session.run_done` first: a run that is
done has passed over a phrase of its goals. `Session.run_stopped` is about the other runs: where no
fault is in the way, a run stops at a token with which no phrase goes on, and everything in front
of that token can still become a program.
-/

namespace BasicCompiler

namespace Session

open Goal

variable {session after : Session} {goals : List Goal}

/-- A run that is done has passed over a phrase of its goals. -/
theorem run_done {ahead : List (Except Diagnostic Token)} (hsees : session.Sees ahead)
    (h : session.run goals = .done after) :
    ∃ phrase, DerivesAll goals phrase ∧ Passes session phrase after := by
  -- The phrase of the goals is put together from what every move adds in front of the moves
  -- behind it.
  fun_induction Session.run session goals generalizing ahead with
  | case1 session =>
    cases h
    exact ⟨.empty, .nil, .refl after⟩
  | case2 | case4 | case6 => cases h
  | case3 session goal rest goals hplan ih =>
    obtain ⟨phrase, hphrase, hpasses⟩ := ih hsees h
    obtain ⟨p, q, rfl, hp, hq⟩ := derivesAll_append.mp hphrase
    have hplanned := planned_of_plan hplan
    exact ⟨p ++ q, .cons (hplanned.derives_of_expand hp) hq, hpasses⟩
  | case5 session goal rest action hplan middle hdone ih =>
    obtain rfl := eq_act_of_plan hplan
    obtain ⟨p, hp, hfirst⟩ := passes_perform hdone
    obtain ⟨_, _, _, _, hmiddle⟩ := hfirst.sees hsees
    obtain ⟨q, hq, hothers⟩ := ih hmiddle h
    exact ⟨p ++ q, .cons hp hq, hfirst.trans hothers⟩
  | case7 session goal rest text goals hplan middle hdone ih =>
    have hplanned := planned_of_plan hplan
    have hfirst := passes_consume hplan hdone
    obtain ⟨_, _, _, _, hmiddle⟩ := hfirst.sees hsees
    obtain ⟨phrase, hphrase, hothers⟩ := ih hmiddle h
    obtain ⟨p, q, rfl, hp, hq⟩ := derivesAll_append.mp hphrase
    refine ⟨goal.taken session.current text ++ (p ++ q), ?_, hfirst.trans hothers⟩
    rw [← Phrase.append_assoc]
    exact .cons (hplanned.derives_of_consume hsees.current_wellFormed hp) hq

/-- A run that is done with the statements of a program is at the end of the input. -/
theorem run_done_at_end {ahead : List (Except Diagnostic Token)} (hsees : session.Sees ahead)
    (hstack : Orderly goals) (hne : goals ≠ []) (h : session.run goals = .done after) :
    after.current.kind = .endOfInput := by
  fun_induction Session.run session goals generalizing ahead with
  | case1 session => exact absurd rfl hne
  | case2 | case4 | case6 => cases h
  | case3 session goal rest goals hplan ih =>
    have hplanned := planned_of_plan hplan
    -- The last goal is only left when the end of the input closes the program.
    by_cases hlast : goals ++ rest = []
    · obtain ⟨rfl, rfl⟩ := List.append_eq_nil_iff.mp hlast
      obtain rfl := hstack.bottom goal rfl
      rw [List.append_nil, run_nil] at h
      cases h
      cases hplanned with
      | closed hkind => exact hkind
    · exact ih hsees (hplanned.orderly_of_expand hstack) hlast h
  | case5 session goal rest action hplan middle hdone ih =>
    obtain rfl := eq_act_of_plan hplan
    obtain ⟨p, hp, hpasses⟩ := passes_perform hdone
    obtain ⟨_, _, _, _, hmiddle⟩ := hpasses.sees hsees
    refine ih hmiddle hstack.tail ?_ h
    intro hsame
    subst hsame
    cases hstack.bottom _ rfl
  | case7 session goal rest text goals hplan middle hdone ih =>
    have hplanned := planned_of_plan hplan
    obtain ⟨_, _, _, _, hmiddle⟩ := (passes_consume hplan hdone).sees hsees
    exact ih hmiddle (hplanned.orderly_of_consume hsees.current_wellFormed hstack)
      (hplanned.append_ne_nil_of_consume hstack) h

/-! ## Where a run stops -/

/-- Of the tokens in front and the end of the input behind them, some can be passed over on the way
to a program, but no phrase goes on with the next one, which is where the diagnostic points. -/
def Stuck (session : Session) (goals : List Goal) (tokens : List Token)
    (diagnostic : Diagnostic) : Prop :=
  ∃ before token, before ++ [token] <+: tokens ++ [.endOfInput session.stream.finish] ∧
    token.location = diagnostic.location ∧
    Viable goals session.scope.names (before.map Token.terminal) ∧
    ¬ Begins goals session.scope.names ((before ++ [token]).map Token.terminal)

variable {tokens : List Token} {diagnostic : Diagnostic}

/-- The current token is the first one in front, or the end of the input. -/
theorem Sees.exists_current (h : session.Sees (tokens.map .ok)) :
    ∃ rest, tokens ++ [.endOfInput session.stream.finish] = session.current :: rest := by
  cases tokens with
  | nil => exact ⟨[], congrArg (· :: []) (Except.ok.inj h.current)⟩
  | cons token tokens => exact ⟨_, congrArg (· :: _) (Except.ok.inj h.current)⟩

/-- The declaration of a label comes behind its name, and nowhere else. -/
theorem mark_notMem_of_expand {goal : Goal} {word : String} {location : Location}
    (hplan : goal.plan session.scope session.current session.next = .expand goals) :
    .act (.mark word location) ∉ goals := by
  have hplanned := planned_of_plan hplan
  cases hplanned <;> simp

/-- A goal that takes a token and then declares a label is the name of the label. -/
theorem eq_label_of_consume {goal : Goal} {text word : String} {location : Location}
    (hplan : goal.plan session.scope session.current session.next = .consume text goals)
    (hmark : .act (.mark word location) ∈ goals) :
    goal = .name .label ∧ word = session.current.text ∧ location = session.current.location := by
  have hplanned := planned_of_plan hplan
  cases hplanned with
  | statement _ _ hleads => cases hleads <;> simp [ofGuard] at hmark
  | @name use _ => cases use <;> simp_all [ofName]
  | _ => simp at hmark

section Moves

variable {ahead : List (Except Diagnostic Token)} {passed : List Token} {middle : Session}
  {goal : Goal} {rest : List Goal}

/-- A label is declared directly behind its name, unless declaring it was the first goal. -/
theorem Moves.exists_label {word : String} {location : Location}
    (h : Moves session goals passed middle (.act (.mark word location) :: rest))
    (hready : session.Ready goals ahead) :
    goals = .act (.mark word location) :: rest ∧ middle = session ∨
      ∃ before last others, passed = before ++ [last.current] ∧
        Moves session goals before last (.name .label :: others) ∧
        last.current.kind = .name ∧ word = last.current.text ∧
        location = last.current.location ∧ middle.scope = last.scope := by
  generalize hstack : .act (.mark word location) :: rest = goals' at h
  cases h with
  | refl => exact .inl ⟨rfl, rfl⟩
  | step hmoves hstep =>
    obtain ⟨_, _, hlast, _⟩ := hmoves.ready hready
    -- An orderly stack has the declaration on top only, so the last move has put it there.
    cases hstep with
    | @expand _ goals others hplan =>
      have hmem : .act (.mark word location) ∈ goals ++ others := hstack ▸ List.mem_cons_self
      rcases List.mem_append.mp hmem with hmem | hmem
      · exact absurd hmem (mark_notMem_of_expand hplan)
      · exact absurd hmem (hlast.orderly.marks word location)
    | perform =>
      exact absurd (hstack ▸ List.mem_cons_self) (hlast.orderly.marks word location)
    | @consume _ _ _ goals others hplan hdone =>
      have hmem : .act (.mark word location) ∈ goals ++ others := hstack ▸ List.mem_cons_self
      rcases List.mem_append.mp hmem with hmem | hmem
      · obtain ⟨rfl, rfl, rfl⟩ := eq_label_of_consume hplan hmem
        have hkind := (eq_of_require_eq_consume hplan).1
        exact .inr ⟨_, _, others, rfl, hmoves, hkind, rfl, rfl, scope_of_shift hdone⟩
      · exact absurd hmem (hlast.orderly.marks word location)

/-- Some tokens can be passed over on the way to a program, but no phrase goes on with the next
one. -/
def Blocks (session : Session) (goals : List Goal) (before : List Token) (token : Token) : Prop :=
  Viable goals session.scope.names (before.map Token.terminal) ∧
    ¬ Begins goals session.scope.names ((before ++ [token]).map Token.terminal)

/-- A goal that turns the current token away lets no phrase go on with it. -/
theorem Moves.blocks_of_reject (h : Moves session goals passed middle (goal :: rest))
    (hready : session.Ready goals ahead)
    (hplan : goal.plan middle.scope middle.current middle.next = .reject diagnostic) :
    session.Blocks goals passed middle.current := by
  obtain ⟨_, _, hmiddle, _⟩ := h.ready hready
  constructor
  · rw [← List.append_nil (passed.map _)]
    refine h.viable hready (hmiddle.orderly.viable hmiddle.jumps ?_)
    intro word location hsame
    subst hsame
    cases hplan
  · rw [List.map_append]
    intro hbegins
    exact (planned_of_plan hplan).not_begins_of_reject hmiddle.predictive
      (h.begins hready hbegins)

/-- A label that is declared already lets no phrase go on with its name. -/
theorem Moves.blocks_of_mem_labels (h : Moves session goals passed middle (.name .label :: rest))
    (hready : session.Ready goals ahead) (hkind : middle.current.kind = .name)
    (hmem : middle.current.text ∈ middle.scope.labels) :
    session.Blocks goals passed middle.current := by
  obtain ⟨_, _, hmiddle, _⟩ := h.ready hready
  constructor
  · rw [← List.append_nil (passed.map _)]
    exact h.viable hready (hmiddle.orderly.viable hmiddle.jumps (by simp))
  · rw [List.map_append]
    intro hbegins
    have hplanned : Planned middle.scope middle.current middle.next (.name .label) _ := .name hkind
    exact not_begins_of_mem_labels hmem
      (hplanned.begins_of_consume hmiddle.predictive (h.begins hready hbegins))

/-- A goal that takes the current token leaves a program to go on with it, unless it is the name of
a label that is declared already. -/
theorem Moves.viable_of_consume {text : String} {others : List Goal}
    (h : Moves session goals passed middle (goal :: rest)) (hready : session.Ready goals ahead)
    (hplan : goal.plan middle.scope middle.current middle.next = .consume text others)
    (hlabel : goal = .name .label → middle.current.text ∉ middle.scope.labels) :
    Viable goals session.scope.names ((passed ++ [middle.current]).map Token.terminal) := by
  obtain ⟨_, _, hmiddle, _⟩ := h.ready hready
  have hplanned := planned_of_plan hplan
  have hwell := hmiddle.sees.current_wellFormed
  have horderly := hplanned.orderly_of_consume hwell hmiddle.orderly
  rw [List.map_append]
  refine h.viable hready (hplanned.viable_of_consume hwell (weight_lt_of_plan_eq_consume hplan).1
    hplanned.admits_reads ?_)
  by_cases hname : goal = .name .label
  · -- The label is new, so it can be declared, and then the stack can be met.
    subst hname
    obtain ⟨-, rfl⟩ := eq_of_require_eq_consume hplan
    have hmark : Derives (.act (.mark middle.current.text middle.current.location)) _ := rfl
    have hadmits : middle.scope.names.Admits [.label middle.current.text] := ⟨hlabel rfl, trivial⟩
    have hpossible := hmark.possible_act hadmits (by simp)
    exact .of_act hmark hpossible
      (horderly.tail.viable (hpossible.jumpsAreNames hmiddle.jumps) (by simp [Goal.write]))
  · obtain ⟨first, behind, hstack⟩ :=
      List.exists_cons_of_ne_nil (hplanned.append_ne_nil_of_consume hmiddle.orderly)
    rw [hstack] at horderly ⊢
    refine horderly.viable hmiddle.jumps fun word location hmark => ?_
    subst hmark
    have hmem : .act (.mark word location) ∈ others ++ rest := hstack ▸ List.mem_cons_self
    rcases List.mem_append.mp hmem with hmem | hmem
    · exact hname (eq_label_of_consume hplan hmem).1
    · exact hmiddle.orderly.marks word location hmem

end Moves

/-- A run over a source without faults that is stopped is stuck, unless the first thing it had to
do was to declare a label for the second time. -/
theorem run_stopped (hready : session.Ready goals (tokens.map .ok))
    (h : session.run goals = .stopped diagnostic after) :
    session.Stuck goals tokens diagnostic ∨
      ∃ word location rest, goals = .act (.mark word location) :: rest ∧
        word ∈ session.scope.labels ∧ diagnostic = .duplicateLabel word location := by
  -- The second case is needed because a label is declared behind its name: the move that fails is
  -- one move later than the token that is reported.
  obtain ⟨passed, middle, goals', hmoves, hends⟩ := exists_moves session goals
  obtain ⟨_, hahead, hmiddle, hfinish⟩ := hmoves.ready hready
  obtain ⟨passed', others, rfl, hpassed, rfl⟩ := List.map_eq_append_iff.mp hahead
  obtain rfl : passed' = passed := (List.map_inj_right fun _ _ => Except.ok.inj).mp hpassed
  rw [h] at hends
  cases hends with
  | reject hplan =>
    obtain ⟨hviable, hbegins⟩ := hmoves.blocks_of_reject hready hplan
    obtain ⟨_, hothers⟩ := hmiddle.sees.exists_current
    refine .inl ⟨passed', after.current, ?_, (planned_of_plan hplan).location_of_reject.symm,
      hviable, hbegins⟩
    rw [List.append_assoc, ← hfinish, hothers, List.prefix_append_right_inj]
    exact ⟨_, rfl⟩
  | refuse hstopped =>
    obtain ⟨word, location, rfl, hmem, rfl, -⟩ := eq_mark_of_perform hstopped
    rcases hmoves.exists_label hready with ⟨rfl, rfl⟩ |
      ⟨before, last, _, rfl, hlast, hkind, rfl, rfl, hscope⟩
    · exact .inr ⟨word, location, _, rfl, hmem, rfl⟩
    · rw [hscope] at hmem
      obtain ⟨hviable, hbegins⟩ := hlast.blocks_of_mem_labels hready hkind hmem
      refine .inl ⟨before, last.current, ?_, rfl, hviable, hbegins⟩
      rw [List.append_assoc]
      exact List.prefix_append _ _
  | @fault _ _ text _ _ _ _ hstopped =>
    -- Without faults in front, the window can always be moved.
    have hwritten : (middle.write text).Sees (others.map .ok) := hmiddle.sees.congr rfl rfl rfl
    obtain ⟨_, hshift⟩ := hwritten.exists_shift
    rw [hshift] at hstopped
    cases hstopped

end Session

end BasicCompiler
