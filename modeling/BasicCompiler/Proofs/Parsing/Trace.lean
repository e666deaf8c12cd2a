import BasicCompiler.Proofs.Parsing.Prefix
import BasicCompiler.Proofs.Parsing.Window

/-!
# The moves of a run

A run as a sequence of single moves. `Session.Step` is one move, with the tokens it passes over,
`Session.Moves` is any number of them, and `Session.Ends` lists the ways in which a run ends where
no further move can be made. Read `Session.exists_moves` first: every run is some moves and then an
end, whatever the end is. What every move preserves therefore holds where a run stops, in
particular `Session.Ready`.
-/

namespace BasicCompiler

namespace Session

open Goal

/-- One move of a run: the session and its goals before, the tokens passed over, and the session
and its goals behind the move. -/
inductive Step : Session → List Goal → List Token → Session → List Goal → Prop where
  /-- A goal is replaced by others. -/
  | expand {session : Session} {goal : Goal} {goals rest : List Goal}
      (plan : goal.plan session.scope session.current session.next = .expand goals) :
      Step session (goal :: rest) [] session (goals ++ rest)
  /-- An action is carried out. -/
  | perform {session after : Session} {action : Action} {rest : List Goal}
      (done : session.perform action = .done after) :
      Step session (.act action :: rest) [] after rest
  /-- The current token is passed over. -/
  | consume {session after : Session} {goal : Goal} {text : String} {goals rest : List Goal}
      (plan : goal.plan session.scope session.current session.next = .consume text goals)
      (done : (session.write text).shift = .done after) :
      Step session (goal :: rest) [session.current] after (goals ++ rest)

/-- Any number of moves, one after the other. -/
inductive Moves (session : Session) (goals : List Goal) :
    List Token → Session → List Goal → Prop where
  | refl : Moves session goals [] session goals
  | step {passed more : List Token} {middle after : Session} {goals' goals'' : List Goal}
      (moves : Moves session goals passed middle goals')
      (step : Step middle goals' more after goals'') :
      Moves session goals (passed ++ more) after goals''

/-- How a run ends. -/
inductive Ends : Session → List Goal → Outcome → Prop where
  /-- Every goal is met. -/
  | done {session : Session} : Ends session [] (.done session)
  /-- A goal turns the current token away. -/
  | reject {session : Session} {goal : Goal} {rest : List Goal} {diagnostic : Diagnostic}
      (plan : goal.plan session.scope session.current session.next = .reject diagnostic) :
      Ends session (goal :: rest) (.stopped diagnostic session)
  /-- An action cannot be carried out. -/
  | refuse {session after : Session} {action : Action} {rest : List Goal}
      {diagnostic : Diagnostic} (stopped : session.perform action = .stopped diagnostic after) :
      Ends session (.act action :: rest) (.stopped diagnostic after)
  /-- The current token cannot be passed over, because a fault would come into view. -/
  | fault {session after : Session} {goal : Goal} {text : String} {goals rest : List Goal}
      {diagnostic : Diagnostic}
      (plan : goal.plan session.scope session.current session.next = .consume text goals)
      (stopped : (session.write text).shift = .stopped diagnostic after) :
      Ends session (goal :: rest) (.stopped diagnostic after)

/-- A goal that is met by an action is that action. -/
theorem eq_act_of_plan {session : Session} {goal : Goal} {action : Action}
    (hplan : goal.plan session.scope session.current session.next = .perform action) :
    goal = .act action := by
  have hplanned := planned_of_plan hplan
  cases hplanned
  rfl

variable {session after middle : Session} {goals goals' : List Goal} {passed : List Token}
  {ahead : List (Except Diagnostic Token)} {front : List Terminal}

/-- A move and then further moves. -/
theorem Moves.head {more : List Token} {goals'' : List Goal}
    (hstep : Step session goals passed middle goals')
    (hmoves : Moves middle goals' more after goals'') :
    Moves session goals (passed ++ more) after goals'' := by
  induction hmoves with
  | refl =>
    rw [List.append_nil]
    exact .step .refl hstep
  | step _ hlast ih =>
    rw [← List.append_assoc]
    exact .step ih hlast

/-- Every run is some moves and then an end. -/
theorem exists_moves (session : Session) (goals : List Goal) :
    ∃ passed middle goals', Moves session goals passed middle goals' ∧
      Ends middle goals' (session.run goals) := by
  fun_induction Session.run session goals with
  | case1 session => exact ⟨[], session, [], .refl, .done⟩
  | case2 session goal rest diagnostic hplan => exact ⟨[], session, _, .refl, .reject hplan⟩
  | case3 session goal rest goals hplan ih =>
    obtain ⟨passed, middle, goals', hmoves, hends⟩ := ih
    exact ⟨passed, middle, goals', .head (.expand hplan) hmoves, hends⟩
  | case4 session goal rest action hplan diagnostic middle hstopped =>
    obtain rfl := eq_act_of_plan hplan
    exact ⟨[], session, _, .refl, .refuse hstopped⟩
  | case5 session goal rest action hplan middle hdone ih =>
    obtain rfl := eq_act_of_plan hplan
    obtain ⟨passed, last, goals', hmoves, hends⟩ := ih
    exact ⟨passed, last, goals', .head (.perform hdone) hmoves, hends⟩
  | case6 session goal rest text goals hplan diagnostic middle hstopped =>
    exact ⟨[], session, _, .refl, .fault hplan hstopped⟩
  | case7 session goal rest text goals hplan middle hdone ih =>
    obtain ⟨passed, last, goals', hmoves, hends⟩ := ih
    exact ⟨_, last, goals', .head (.consume hplan hdone) hmoves, hends⟩

/-! ## What a move does -/

/-- What an action leads to that is carried out. -/
inductive Performed (session : Session) : Action → Session → Prop where
  | write (text : String) : Performed session (.write text) (session.write text)
  | known {name : String} (h : name ∈ session.scope.declared) :
      Performed session (.declare name) session
  | fresh {name : String} (h : name ∉ session.scope.declared) :
      Performed session (.declare name)
        { session with
          listing := session.listing.writeHeaderLine (Fragment.declaration name)
          scope := session.scope.declare name }
  | mark {name : String} (location : Location) (h : name ∉ session.scope.labels) :
      Performed session (.mark name location) { session with scope := session.scope.mark name }
  | jump (name : String) (location : Location) :
      Performed session (.jump name location)
        { session with scope := session.scope.jump name location }

/-- Actions do nothing else. -/
theorem performed_of_perform {action : Action} (h : session.perform action = .done after) :
    Performed session action after := by
  cases action with
  | write text =>
    cases h
    exact .write text
  | declare name =>
    rw [Session.perform] at h
    split at h
    · next hdeclared =>
      cases h
      exact .known hdeclared
    · next hdeclared =>
      cases h
      exact .fresh hdeclared
  | mark name location =>
    rw [Session.perform] at h
    split at h
    · cases h
    · next hlabels =>
      cases h
      exact .mark location hlabels
  | jump name location =>
    cases h
    exact .jump name location

/-- Only the declaration of a label that is declared already stops an action. -/
theorem eq_mark_of_perform {action : Action} {diagnostic : Diagnostic}
    (h : session.perform action = .stopped diagnostic after) :
    ∃ word location, action = .mark word location ∧ word ∈ session.scope.labels ∧
      diagnostic = .duplicateLabel word location ∧ after = session := by
  cases action with
  | mark word location =>
    rw [Session.perform] at h
    split at h
    · next hlabels =>
      cases h
      exact ⟨word, location, rfl, hlabels, rfl, rfl⟩
    · cases h
  | declare word =>
    rw [Session.perform] at h
    split at h <;> cases h
  | write | jump => cases h

/-- Passing over a token leaves the names as they are. -/
theorem scope_of_shift {text : String} (h : (session.write text).shift = .done after) :
    after.scope = session.scope := by
  obtain ⟨_, _, _, rfl⟩ := shift_eq_done h
  rfl

/-- What a move passes over, and the current token behind it, begins with the current token in
front of it. -/
theorem Step.exists_front (h : Step session goals passed after goals') (front : List Terminal) :
    ∃ front', passed.map Token.terminal ++ after.current.terminal :: front =
      session.current.terminal :: front' := by
  cases h with
  | expand => exact ⟨front, rfl⟩
  | perform done => cases performed_of_perform done <;> exact ⟨front, rfl⟩
  | consume => exact ⟨_, rfl⟩

/-- What a move passes over was in front of the session, and what was behind it is in front
now. -/
theorem Step.sees (h : Step session goals passed after goals') (hsees : session.Sees ahead) :
    ∃ rest, ahead = passed.map .ok ++ rest ∧ after.Sees rest := by
  cases h with
  | expand => exact ⟨ahead, rfl, hsees⟩
  | perform done =>
    refine ⟨ahead, rfl, ?_⟩
    cases performed_of_perform done <;> exact hsees.congr rfl rfl rfl
  | @consume _ _ text _ _ plan done =>
    obtain ⟨rest, rfl⟩ := hsees.eq_cons (weight_lt_of_plan_eq_consume plan).1
    have hwritten : (session.write text).Sees (.ok session.current :: rest) :=
      hsees.congr rfl rfl rfl
    exact ⟨rest, rfl, hwritten.of_shift done⟩

/-- What moves pass over was in front of the session, and what was behind it is in front now. -/
theorem Moves.sees (h : Moves session goals passed after goals') (hsees : session.Sees ahead) :
    ∃ rest, ahead = passed.map .ok ++ rest ∧ after.Sees rest := by
  induction h with
  | refl => exact ⟨ahead, rfl, hsees⟩
  | step _ hstep ih =>
    obtain ⟨rest, rfl, hmiddle⟩ := ih
    obtain ⟨rest', rfl, hafter⟩ := hstep.sees hmiddle
    refine ⟨rest', ?_, hafter⟩
    rw [List.map_append, List.append_assoc]

/-! ## Ready sessions -/

/-- The state of a run: what is in front of the session, and what its stack and its names
satisfy. -/
structure Ready (session : Session) (goals : List Goal)
    (ahead : List (Except Diagnostic Token)) : Prop where
  sees : session.Sees ahead
  predictive : Predictive goals
  orderly : Orderly goals
  jumps : session.scope.names.JumpsAreNames

/-- A move keeps a session ready. -/
theorem Step.ready (h : Step session goals passed after goals')
    (hready : session.Ready goals ahead) :
    ∃ rest, ahead = passed.map .ok ++ rest ∧ after.Ready goals' rest ∧
      after.stream.finish = session.stream.finish := by
  obtain ⟨hsees, hpredictive, horderly, hjumps⟩ := hready
  obtain ⟨rest, rfl, hrest⟩ := h.sees hsees
  refine ⟨rest, rfl, ?_⟩
  cases h with
  | expand plan =>
    have hplanned := planned_of_plan plan
    exact ⟨⟨hrest, hplanned.predictive_of_expand hpredictive,
      hplanned.orderly_of_expand horderly, hjumps⟩, rfl⟩
  | perform done =>
    obtain ⟨p, hp, hpasses⟩ := passes_perform done
    have hpossible := hp.possible_act hpasses.admits fun word location haction =>
      horderly.jumps word location (haction ▸ List.mem_cons_self)
    refine ⟨⟨hrest, hpredictive.2, horderly.tail, ?_⟩, hpasses.finish⟩
    rw [hpasses.names]
    exact hpossible.jumpsAreNames hjumps
  | consume plan done =>
    have hplanned := planned_of_plan plan
    refine ⟨⟨hrest, hplanned.predictive_of_consume hpredictive,
      hplanned.orderly_of_consume hsees.current_wellFormed horderly, ?_⟩,
      (passes_consume plan done).finish⟩
    rw [scope_of_shift done]
    exact hjumps

/-- What is viable behind a move is viable in front of it, with the tokens passed over. -/
theorem Step.viable (h : Step session goals passed after goals')
    (hready : session.Ready goals ahead) (hviable : Viable goals' after.scope.names front) :
    Viable goals session.scope.names (passed.map Token.terminal ++ front) := by
  cases h with
  | expand plan => exact (planned_of_plan plan).viable_of_expand hviable
  | perform done =>
    obtain ⟨p, hp, hpasses⟩ := passes_perform done
    have hpossible := hp.possible_act hpasses.admits fun word location haction =>
      hready.orderly.jumps word location (haction ▸ List.mem_cons_self)
    rw [hpasses.names] at hviable
    exact .of_act hp hpossible hviable
  | consume plan done =>
    have hplanned := planned_of_plan plan
    rw [scope_of_shift done] at hviable
    exact hplanned.viable_of_consume hready.sees.current_wellFormed
      (weight_lt_of_plan_eq_consume plan).1 hplanned.admits_reads hviable

/-- A phrase that goes on with what a move passes over and the current token behind it goes on
there. -/
theorem Step.begins (h : Step session goals passed after goals')
    (hready : session.Ready goals ahead)
    (hbegins : Begins goals session.scope.names
      (passed.map Token.terminal ++ after.current.terminal :: front)) :
    Begins goals' after.scope.names (after.current.terminal :: front) := by
  cases h with
  | expand plan => exact (planned_of_plan plan).begins_of_expand hbegins
  | perform done =>
    obtain ⟨p, hp, hpasses⟩ := passes_perform done
    rw [hpasses.names]
    exact hbegins.of_act hp
  | consume plan done =>
    rw [scope_of_shift done]
    exact (planned_of_plan plan).begins_of_consume hready.predictive hbegins

/-- Moves keep a session ready. -/
theorem Moves.ready (h : Moves session goals passed after goals')
    (hready : session.Ready goals ahead) :
    ∃ rest, ahead = passed.map .ok ++ rest ∧ after.Ready goals' rest ∧
      after.stream.finish = session.stream.finish := by
  induction h with
  | refl => exact ⟨ahead, rfl, hready, rfl⟩
  | step _ hstep ih =>
    obtain ⟨rest, rfl, hmiddle, hfinish⟩ := ih
    obtain ⟨rest', rfl, hafter, hfinish'⟩ := hstep.ready hmiddle
    refine ⟨rest', ?_, hafter, hfinish'.trans hfinish⟩
    rw [List.map_append, List.append_assoc]

/-- What is viable behind some moves is viable in front of them, with the tokens passed over. -/
theorem Moves.viable (h : Moves session goals passed after goals')
    (hready : session.Ready goals ahead) (hviable : Viable goals' after.scope.names front) :
    Viable goals session.scope.names (passed.map Token.terminal ++ front) := by
  induction h generalizing front with
  | refl => exact hviable
  | step hmoves hstep ih =>
    obtain ⟨_, _, hmiddle, _⟩ := hmoves.ready hready
    rw [List.map_append, List.append_assoc]
    exact ih (hstep.viable hmiddle hviable)

/-- A phrase that goes on with what some moves pass over and the current token behind them goes on
there. -/
theorem Moves.begins (h : Moves session goals passed after goals')
    (hready : session.Ready goals ahead)
    (hbegins : Begins goals session.scope.names
      (passed.map Token.terminal ++ after.current.terminal :: front)) :
    Begins goals' after.scope.names (after.current.terminal :: front) := by
  induction h generalizing front with
  | refl => exact hbegins
  | step hmoves hstep ih =>
    obtain ⟨_, _, hmiddle, _⟩ := hmoves.ready hready
    obtain ⟨front', hfront⟩ := hstep.exists_front front
    rw [List.map_append, List.append_assoc, hfront] at hbegins
    refine hstep.begins hmiddle ?_
    rw [hfront]
    exact ih hbegins

end Session

end BasicCompiler
