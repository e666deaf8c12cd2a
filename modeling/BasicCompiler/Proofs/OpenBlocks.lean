import BasicCompiler.Proofs.ErrorPlaces

/-!
# Errors at the end of a source

Where the input ends too early, the error is placed behind the last character of the source. Read
`exists_openBlock` first: if the last line of the source is complete, the only such error is a block
that is still open. That rests on what a run can be at behind a line end, which is the statements of
a block (`Session.Lined.atStatements`).
-/

namespace BasicCompiler

/-! ## Errors that turn the end of the input away -/

/-- The diagnostic turns the end of the input away. -/
def Diagnostic.MeetsEnd : Diagnostic → Prop
  | .unexpectedToken _ found _ _ => found = .endOfInput
  | .misplacedToken _ kind _ _ => kind = .endOfInput
  | .lexical .. | .undeclaredVariable .. | .duplicateLabel .. | .undeclaredLabel .. => False

section

variable {source : String} {diagnostic : Diagnostic} {p k : Nat} {token : Token}

/-- The token behind a reserved word is a name. -/
theorem NamedBehind.kind_eq {word : Keyword} {name : String} (h : NamedBehind word source k name)
    (htoken : reading source k = .ok token) : token.kind = .name := by
  obtain ⟨_, _, second, _, _, _, hsecond, hkind, _⟩ := h
  cases htoken.symm.trans hsecond
  exact hkind

/-- A token stands at the end of the source if it is the end of the input, and only then. -/
theorem TokenAt.endOfInput_iff (h : TokenAt source p k token) :
    token.kind = .endOfInput ↔ p = source.toList.length := by
  refine ⟨h.at_end, fun hlength => Classical.byContradiction fun hkind => ?_⟩
  obtain ⟨before, behind, hcall⟩ := (called_of_reading h.read).exists_parts
  have hbegins := h.lexeme_begins
  rw [hlength, List.drop_length, List.prefix_nil] at hbegins
  exact hcall.behind_ne_nil token rfl hkind ((hcall.behind_eq token rfl).trans hbegins)

/-- What a diagnostic is about stands at the end of the source if the diagnostic turns the end of
the input away, and only then. -/
theorem Concerns.meetsEnd_iff (h : Concerns source p diagnostic) :
    diagnostic.MeetsEnd ↔ p = source.toList.length := by
  have hinside : ∀ {c cs}, source.toList.drop p = c :: cs → p ≠ source.toList.length := by
    intro c cs htext hlength
    rw [hlength, List.drop_length] at htext
    cases htext
  have hname : ∀ {k token}, TokenAt source p k token → token.kind = .name →
      p ≠ source.toList.length := by
    intro k token htoken hkind hlength
    rw [htoken.endOfInput_iff.mpr hlength] at hkind
    cases hkind
  cases h with
  | malformed _ text hmalformed =>
    obtain ⟨c, cs, rfl, -⟩ := hmalformed.read_eq
    exact iff_of_false id (hinside text)
  | illegal _ _ text => exact iff_of_false id (hinside text)
  | unexpected htoken => exact htoken.endOfInput_iff
  | misplaced htoken => exact htoken.endOfInput_iff
  | undeclaredVariable htoken hkind => exact iff_of_false id (hname htoken hkind)
  | duplicateLabel htoken hlabel =>
    exact iff_of_false id (hname htoken (hlabel.kind_eq htoken.read))
  | undeclaredLabel htoken hjump =>
    exact iff_of_false id (hname htoken (hjump.kind_eq htoken.read))

/-- What is pinpointed is placed behind a part of the source, which is the whole source if the
diagnostic turns the end of the input away, and only then. -/
theorem Pinpoints.exists_front (h : Pinpoints source diagnostic) :
    ∃ front rest, source.toList = front ++ rest ∧ diagnostic.location = .counted front ∧
      (diagnostic.MeetsEnd ↔ rest = []) := by
  obtain ⟨p, hp, hlocation, hconcerns⟩ := h
  refine ⟨_, _, (List.take_append_drop p _).symm, hlocation, ?_⟩
  rw [hconcerns.meetsEnd_iff, List.drop_eq_nil_iff]
  exact ⟨fun hlength => Nat.le_of_eq hlength.symm, fun hlength => Nat.le_antisymm hp hlength⟩

/-- The error of a source that is not compiled is placed behind a part of the source. -/
theorem exists_front_of_error (h : compile source = .error diagnostic) :
    ∃ front rest, source.toList = front ++ rest ∧ diagnostic.location = .counted front ∧
      (diagnostic.MeetsEnd ↔ rest = []) := by
  rcases exists_end_of_error h with ⟨k, hfault⟩ |
    ⟨passed, session, goals, hreached, ⟨after, hends⟩ | ⟨rfl, hunresolved⟩⟩
  · exact (pinpoints_of_fault hfault).exists_front
  · cases hends with
    | reject plan => exact (hreached.pinpoints_of_reject plan).exists_front
    | refuse stopped => exact (hreached.pinpoints_of_refuse stopped).exists_front
    | fault plan stopped =>
      exact (pinpoints_of_fault (hreached.firstFault stopped).fault).exists_front
  · exact (hreached.pinpoints_of_unresolved hunresolved).exists_front

/-- An error that turns the end of the input away is one with which a goal rejects it. -/
theorem exists_reject_of_meetsEnd (h : compile source = .error diagnostic)
    (hend : diagnostic.MeetsEnd) :
    ∃ passed session goal rest, Reached source passed session (goal :: rest) ∧
      session.current.kind = .endOfInput ∧
      goal.plan session.scope session.current session.next = .reject diagnostic := by
  rcases exists_end_of_error h with ⟨k, hfault⟩ |
    ⟨passed, session, goals, hreached, ⟨after, hends⟩ | ⟨rfl, hunresolved⟩⟩
  · obtain ⟨_, _, _, _, -, -, rfl⟩ := exists_front_of_fault hfault
    cases hend
  · cases hends with
    | @reject goal rest _ plan =>
      refine ⟨passed, session, goal, rest, hreached, ?_, plan⟩
      have hplanned := Goal.planned_of_plan plan
      cases hplanned with
      | unknown => cases hend
      | _ => exact hend
    | refuse stopped =>
      obtain ⟨_, _, -, -, rfl, -⟩ := Session.eq_mark_of_perform stopped
      cases hend
    | fault plan stopped =>
      obtain ⟨_, _, _, _, -, -, rfl⟩ :=
        exists_front_of_fault (hreached.firstFault stopped).fault
      cases hend
  · obtain ⟨_, -, rfl⟩ := Option.map_eq_some_iff.mp hunresolved
    cases hend

end

/-! ## Goals behind a line end -/

namespace Goal

/-- The statements of a block come next, behind nothing but text to be written. -/
inductive OpensBlock : List Goal → Prop where
  | statements (block : Block) (rest : List Goal) : OpensBlock (.statements block :: rest)
  | write (text : String) {rest : List Goal} (h : OpensBlock rest) :
      OpensBlock (.write text :: rest)

/-- Behind line ends the statements of a block come next, and behind those of the program nothing
comes. -/
def Lined : List Goal → Prop
  | [] => True
  | goal :: rest =>
    (goal = .lines ∨ goal = .blankLines → OpensBlock rest) ∧
      (goal = .statements .program → rest = []) ∧ Lined rest

/-- Blank lines and the statements of a block come next, or nothing. -/
def AtStatements (goals : List Goal) : Prop :=
  goals = [] ∨ OpensBlock goals ∨ ∃ rest, goals = .blankLines :: rest ∧ OpensBlock rest

/-- Goals that are neither for line ends nor for the statements of the program can come first. -/
theorem Lined.append {goals rest : List Goal} (h : Lined rest)
    (hgoals : ∀ goal ∈ goals, goal ≠ .lines ∧ goal ≠ .blankLines ∧ goal ≠ .statements .program) :
    Lined (goals ++ rest) := by
  induction goals with
  | nil => exact h
  | cons goal goals ih =>
    obtain ⟨⟨hlines, hblank, hprogram⟩, hothers⟩ := List.forall_mem_cons.mp hgoals
    exact ⟨fun hgoal => absurd hgoal (not_or.mpr ⟨hlines, hblank⟩),
      fun hgoal => absurd hgoal hprogram, ih hothers⟩

/-- What a statement consists of behind its first word can come first, if line ends can. -/
theorem Leads.lined {k : Keyword} {goals rest : List Goal} (h : Leads k goals)
    (hrest : Lined rest) : Lined (goals ++ rest) := by
  cases h with
  | print | name => exact hrest.append (by simp)
  | guard guard =>
    have hbody : Lined ([.statements guard.block, .keyword guard.closing,
        write Fragment.blockClose] ++ rest) :=
      hrest.append (by cases guard <;> simp [Guard.block])
    have hopen : Lined ([.lines, write Fragment.blockOpen, .statements guard.block,
        .keyword guard.closing, write Fragment.blockClose] ++ rest) :=
      ⟨fun _ => .write _ (.statements _ _), by simp, by simp, by simp, hbody⟩
    have hcondition : ∀ goal ∈ [write guard.fragment, condition, keyword guard.opening],
        goal ≠ .lines ∧ goal ≠ .blankLines ∧ goal ≠ .statements .program := by
      simp
    exact hopen.append hcondition

end Goal

namespace Planned

open Goal

variable {scope : Scope} {current next : Token} {goal : Goal} {goals rest : List Goal}

/-- Goals in the place of a goal leave line ends where they were. -/
theorem lined_of_expand (h : Planned scope current next goal (.expand goals))
    (hlined : Lined (goal :: rest)) : Lined (goals ++ rest) := by
  refine hlined.2.2.append ?_
  cases h <;> simp

/-- Goals behind a token leave line ends in front of the statements of a block. -/
theorem lined_of_consume {text : String} (h : Planned scope current next goal (.consume text goals))
    (hlined : Lined (goal :: rest)) : Lined (goals ++ rest) := by
  obtain ⟨hlines, hprogram, hrest⟩ := hlined
  cases h with
  | blankLine | line => exact ⟨fun _ => hlines (by simp), nofun, hrest⟩
  | @statement block k goals _ _ hleads =>
    have hnext : Lined ([.lines, .statements block] ++ rest) :=
      ⟨fun _ => .statements _ _, nofun, nofun, hprogram, hrest⟩
    rw [List.append_assoc]
    exact hleads.lined hnext
  | @name use => exact hrest.append (by cases use <;> simp [ofName])
  | _ => exact hrest.append (by simp)

end Planned

namespace Session

open Goal

variable {source : String} {passed more : List Token} {session after : Session}
  {goals goals' : List Goal}

/-- What holds of the goals between two moves: line ends stand where they belong, and at the end of
the input, behind a line end, the statements of a block come next. -/
structure Lined (passed : List Token) (session : Session) (goals : List Goal) : Prop where
  lined : Goal.Lined goals
  atStatements : lastKind passed = some .lineEnd → session.current.kind = .endOfInput →
    AtStatements goals

/-- Replacing a goal at the end of the input does not lead away from the statements of a block. -/
theorem atStatements_of_expand {goal : Goal} {rest : List Goal}
    (h : Planned session.scope session.current session.next goal (.expand goals))
    (hlined : Goal.Lined (goal :: rest)) (hat : AtStatements (goal :: rest))
    (hend : session.current.kind = .endOfInput) : AtStatements (goals ++ rest) := by
  rcases hat with ⟨⟨⟩⟩ | hopens | ⟨_, ⟨⟩, hopens⟩
  · cases hopens with
    | statements block =>
      cases h with
      | closed hclosing =>
        -- Only the program is closed by the end of the input, and nothing comes behind it.
        have hprogram : block = .program := by
          cases block
          · rfl
          · rw [hend] at hclosing
            cases hclosing
          · rw [hend] at hclosing
            cases hclosing
        exact .inl (hlined.2.1 (congrArg Goal.statements hprogram))
    | write => cases h
  · cases h
    exact .inr (.inl hopens)

/-- A move keeps line ends where they belong. -/
theorem Step.lined (h : Step session goals more after goals')
    (hlined : Lined passed session goals) : Lined (passed ++ more) after goals' := by
  obtain ⟨hgoals, hat⟩ := hlined
  cases h with
  | expand plan =>
    have hplanned := planned_of_plan plan
    rw [List.append_nil]
    exact ⟨hplanned.lined_of_expand hgoals,
      fun hlast hend => atStatements_of_expand hplanned hgoals (hat hlast hend) hend⟩
  | perform done =>
    rw [List.append_nil]
    refine ⟨hgoals.2.2, fun hlast hend => ?_⟩
    have hcurrent : after.current = session.current := by
      cases performed_of_perform done <;> rfl
    rw [hcurrent] at hend
    rcases hat hlast hend with ⟨⟨⟩⟩ | hopens | ⟨_, ⟨⟩, _⟩
    cases hopens with
    | write _ hopens => exact .inr (.inl hopens)
  | consume plan done =>
    have hplanned := planned_of_plan plan
    refine ⟨hplanned.lined_of_consume hgoals, fun hlast _ => ?_⟩
    have hkind : session.current.kind = .lineEnd := by
      rw [lastKind_concat] at hlast
      exact Option.some.inj hlast
    cases hplanned with
    | blankLine | line => exact .inr (.inr ⟨_, rfl, hgoals.1 (by simp)⟩)
    | _ => simp_all

/-- Moves keep line ends where they belong. -/
theorem Moves.lined (h : Moves session goals passed after goals') (hgoals : Goal.Lined goals) :
    Lined passed after goals' := by
  induction h with
  | refl => exact ⟨hgoals, nofun⟩
  | step _ hstep ih => exact hstep.lined ih

end Session

namespace Reached

open Session

variable {source : String} {passed : List Token} {session : Session} {goals : List Goal}
  {diagnostic : Diagnostic}

/-- If the last line of a source is complete, the last token in front of the end of the input is a
line end. -/
theorem lastKind_of_endOfInput (h : Reached source passed session goals)
    (hend : session.current.kind = .endOfInput) (hlast : source.toList.getLast? = some '\n') :
    lastKind passed = some .lineEnd := by
  obtain ⟨rest, hpending, hready, -⟩ := h.ready
  rw [hready.sees.eq_nil hend, List.append_nil] at hpending
  have hreads := Cursor.reads_iff_pending.mpr ⟨passed, hpending, rfl⟩
  have hscan := exists_reads_iff_scan.mp ⟨_, hreads, List.map_append⟩
  obtain ⟨front, hfront⟩ := exists_lineEnd_of_scan hscan hlast
  have hkind := congrArg (fun terminals => terminals.getLast?.map Terminal.kind) hfront
  simpa [lastKind, Function.comp_def, Token.terminal] using hkind

/-- What rejects the end of the input behind a line end is a block that is still open. -/
theorem eq_unexpectedToken_of_reject {goal : Goal} {rest : List Goal}
    (h : Reached source passed session (goal :: rest))
    (hend : session.current.kind = .endOfInput) (hlast : source.toList.getLast? = some '\n')
    (hplan : goal.plan session.scope session.current session.next = .reject diagnostic) :
    ∃ block : Block, block ≠ .program ∧ diagnostic = .unexpectedToken block.closing .endOfInput
      session.current.text session.current.location := by
  obtain ⟨first, -, hmoves⟩ := id h
  have hlined := hmoves.lined ⟨fun _ => .statements _ _, nofun, nofun, fun _ => rfl, trivial⟩
  rcases hlined.atStatements (h.lastKind_of_endOfInput hend hlast) hend with
    ⟨⟨⟩⟩ | hopens | ⟨_, ⟨⟩, _⟩
  · cases hopens with
    | statements block =>
      rw [Goal.plan] at hplan
      split at hplan
      · cases hplan
      · next hclosing =>
        cases hplan
        refine ⟨block, fun hprogram => hclosing ?_, by rw [hend]⟩
        rw [hend, hprogram]
        rfl
    | write => cases hplan
  · rw [Goal.plan] at hplan
    split at hplan <;> cases hplan

end Reached

/-- If the last line of a source is complete, an error at its end is a block that is still open. -/
theorem exists_openBlock {source : String} {diagnostic : Diagnostic}
    (h : compile source = .error diagnostic) (hlast : source.toList.getLast? = some '\n')
    (hend : diagnostic.MeetsEnd) :
    ∃ block : Block, block ≠ .program ∧
      diagnostic = .unexpectedToken block.closing .endOfInput "" (.counted source.toList) := by
  obtain ⟨passed, session, goal, rest, hreached, hkind, hplan⟩ := exists_reject_of_meetsEnd h hend
  obtain ⟨block, hblock, rfl⟩ := hreached.eq_unexpectedToken_of_reject hkind hlast hplan
  obtain ⟨front, behind, htext, hlocation, hempty⟩ := exists_front_of_error h
  rw [hempty.mp hend, List.append_nil] at htext
  obtain ⟨location, htoken⟩ := exists_eq_endOfInput hreached.reading_eq.2.1 hkind
  refine ⟨block, hblock, ?_⟩
  rw [htext, ← hlocation, htoken]
  rfl

end BasicCompiler
