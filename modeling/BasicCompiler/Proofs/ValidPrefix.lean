import BasicCompiler.Proofs.Language
import BasicCompiler.Proofs.Lexing.Places
import BasicCompiler.Proofs.Lexing.Printing

/-!
# Errors at the first impossible token

A source that is read without a fault and still not compiled is turned away at one of its tokens,
unless all that is wrong is a jump without its label. Read `stops_at_first_impossible_token` first:
the tokens in front of that one begin some program, and together with it they begin none.
-/

namespace BasicCompiler

/-- A source without faults that is not compiled, though not for a jump without its label, is stuck
at a token: the terminals in front of it are viable, and no phrase goes on with its own. -/
theorem exists_stuck_of_error {source : String} {tokens : List Token} {diagnostic : Diagnostic}
    (hreads : (Cursor.ofSource source).Reads tokens) (herror : compile source = .error diagnostic)
    (hlabel : ∀ name location, diagnostic ≠ .undeclaredLabel name location) :
    ∃ before token, before ++ [token] <+: tokens ∧ token.location = diagnostic.location ∧
      Goal.Viable [.blankLines, .statements .program] .empty (before.map Token.terminal) ∧
      ¬ Goal.Begins [.blankLines, .statements .program] .empty
        ((before ++ [token]).map Token.terminal) := by
  obtain ⟨front, hpending, rfl⟩ := Cursor.reads_iff_pending.mp hreads
  obtain ⟨session, hstart⟩ := Session.exists_start hpending .empty
  obtain ⟨hsees, hfinish, -, hscope⟩ := Session.sees_of_start hstart
  rw [hpending] at hsees
  have hready := Session.ready_openProgram hsees hscope
  have hsource : Session.start (.ofSource source) .empty = .ok session := hstart
  rw [compile, hsource] at herror
  dsimp only at herror
  rw [Session.compileProgram] at herror
  cases hrun : session.openProgram.run [.blankLines, .statements .program] with
  | done after =>
    -- Only a jump without its label can still be wrong behind the last statement.
    rw [hrun, Outcome.andThen, Session.finish] at herror
    split at herror
    · next stopped _ hfinished =>
      split at hfinished
      · next unresolved hunresolved =>
        cases hfinished
        cases herror
        obtain ⟨jump, -, rfl⟩ := Option.map_eq_some_iff.mp hunresolved
        exact absurd rfl (hlabel jump.1 jump.2)
      · cases hfinished
    · cases herror
  | stopped stopped after =>
    rw [hrun] at herror
    cases herror
    have hnames : session.openProgram.scope.names = .empty := by
      show session.scope.names = .empty
      rw [hscope]
      rfl
    have hfinish' : session.openProgram.stream.finish =
        (Stream.ofCursor (.ofSource source)).finish := hfinish
    rcases Session.run_stopped hready hrun with hstuck | ⟨_, _, _, ⟨⟩, _⟩
    rw [Session.Stuck, hnames, hfinish'] at hstuck
    exact hstuck

/-- Viable terminals are the first ones of some source that is compiled. -/
theorem exists_source_of_viable {front : List Terminal}
    (h : Goal.Viable [.blankLines, .statements .program] .empty front) :
    ∃ (source code : String) (tokens : List Token), compile source = .ok code ∧
      (Cursor.ofSource source).Reads tokens ∧ front <+: tokens.map Token.terminal := by
  obtain ⟨phrase, hphrase, hpossible, hresolved, hfront⟩ := h
  obtain ⟨program, rfl⟩ := Goal.derivesAll_program.mp hphrase
  obtain ⟨source, tokens, hreads, hterminals⟩ :=
    exists_source hpossible.wellFormed hpossible.not_endOfInput
  have hscoped := Program.scoped_iff.mpr ⟨hpossible.admits, hresolved⟩
  refine ⟨source, program.text, tokens, ?_, hreads, ?_⟩
  · exact compile_eq_ok_iff.mpr ⟨tokens, program, hreads, hterminals, hscoped, rfl⟩
  · rw [hterminals]
    exact hfront.trans (List.prefix_append _ _)

/-- The first terminals of a source that is compiled begin a phrase of a program. -/
theorem begins_of_compile {source code : String} {tokens : List Token} {front : List Terminal}
    (h : compile source = .ok code) (hreads : (Cursor.ofSource source).Reads tokens)
    (hfront : front <+: tokens.map Token.terminal) :
    Goal.Begins [.blankLines, .statements .program] .empty front := by
  obtain ⟨tokens', program, hreads', hterminals, hscoped, -⟩ := compile_eq_ok_iff.mp h
  obtain rfl := hreads.unique hreads'
  refine ⟨_, Goal.derivesAll_program.mpr ⟨program, rfl⟩, (Program.scoped_iff.mp hscoped).1, ?_⟩
  rw [← Program.terminals_eq, ← hterminals]
  exact hfront

/-- Errors are reported at the first token that makes a program impossible. Let a source be read
without a fault and not be compiled, though not only for a jump without its label. Then exactly one
of its tokens stands where the error is reported. Some source that is compiled begins with the
terminals in front of that token, and none begins with them and its own. -/
theorem stops_at_first_impossible_token {source : String} {tokens : List Token}
    {diagnostic : Diagnostic} (hreads : (Cursor.ofSource source).Reads tokens)
    (herror : compile source = .error diagnostic)
    (hlabel : ∀ name location, diagnostic ≠ .undeclaredLabel name location) :
    ∃ k, (∃ token, tokens[k]? = some token ∧ token.location = diagnostic.location) ∧
      (∀ j other, tokens[j]? = some other → other.location = diagnostic.location → j = k) ∧
      (∃ (source' code : String) (tokens' : List Token), compile source' = .ok code ∧
        (Cursor.ofSource source').Reads tokens' ∧
        (tokens'.map Token.terminal).take k = (tokens.map Token.terminal).take k) ∧
      ¬ ∃ (source' code : String) (tokens' : List Token), compile source' = .ok code ∧
        (Cursor.ofSource source').Reads tokens' ∧
        (tokens'.map Token.terminal).take (k + 1) = (tokens.map Token.terminal).take (k + 1) := by
  obtain ⟨before, token, ⟨rest, rfl⟩, hlocation, hviable, hbegins⟩ :=
    exists_stuck_of_error hreads herror hlabel
  have htoken : (before ++ [token] ++ rest)[before.length]? = some token := by simp
  have htake : ((before ++ [token] ++ rest).map Token.terminal).take before.length =
      before.map Token.terminal := by
    simp [List.take_left']
  have htake' : ((before ++ [token] ++ rest).map Token.terminal).take (before.length + 1) =
      (before ++ [token]).map Token.terminal := by
    rw [List.map_append]
    exact List.take_left' (by simp)
  refine ⟨before.length, ⟨token, htoken, hlocation⟩, ?_, ?_, ?_⟩
  · intro j other hother hsame
    exact hreads.index_unique hother htoken (hsame.trans hlocation.symm)
  · obtain ⟨source', code, tokens', hcompile, hreads', hfront⟩ := exists_source_of_viable hviable
    refine ⟨source', code, tokens', hcompile, hreads', ?_⟩
    rw [htake, List.prefix_iff_eq_take.mp hfront, List.length_map]
  · intro h
    obtain ⟨source', code, tokens', hcompile, hreads', hsame⟩ := h
    refine hbegins (begins_of_compile hcompile hreads' ?_)
    rw [← htake', ← hsame]
    exact List.take_prefix _ _

/-- A program that prints a variable without a value is turned away at the variable. -/
theorem stops_at_first_impossible_token_unassigned :
    compile "PRINT x\n" = .error (.undeclaredVariable "x" ⟨1, 7⟩) ∧
      ∃ tokens, (Cursor.ofSource "PRINT x\n").Reads tokens ∧ ∃ k,
      (∃ token, tokens[k]? = some token ∧
        token.location = (Diagnostic.undeclaredVariable "x" ⟨1, 7⟩).location) ∧
      (∀ j other, tokens[j]? = some other →
        other.location = (Diagnostic.undeclaredVariable "x" ⟨1, 7⟩).location → j = k) ∧
      (∃ (source' code : String) (tokens' : List Token), compile source' = .ok code ∧
        (Cursor.ofSource source').Reads tokens' ∧
        (tokens'.map Token.terminal).take k = (tokens.map Token.terminal).take k) ∧
      ¬ ∃ (source' code : String) (tokens' : List Token), compile source' = .ok code ∧
        (Cursor.ofSource source').Reads tokens' ∧
        (tokens'.map Token.terminal).take (k + 1) = (tokens.map Token.terminal).take (k + 1) := by
  have hreads : (Cursor.ofSource "PRINT x\n").Reads
      [⟨.keyword .PRINT, "PRINT", ⟨1, 1⟩⟩, ⟨.name, "x", ⟨1, 7⟩⟩, ⟨.lineEnd, "\n", ⟨1, 8⟩⟩,
        ⟨.endOfInput, "", ⟨2, 1⟩⟩] :=
    .token rfl (by decide) (.token rfl (by decide) (.token rfl (by decide) (.finish rfl rfl)))
  have herror : compile "PRINT x\n" = .error (.undeclaredVariable "x" ⟨1, 7⟩) := by
    decide +kernel
  exact ⟨herror, _, hreads, stops_at_first_impossible_token hreads herror (by simp)⟩

end BasicCompiler
