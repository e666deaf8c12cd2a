import BasicCompiler.Compiler.Basic
import BasicCompiler.Proofs.Grammar.Unambiguity
import BasicCompiler.Proofs.Lexing.Reading
import BasicCompiler.Proofs.Parsing.Run

/-!
# The language of the compiler

Which sources are compiled, and into what. Read `compile_eq_ok_iff` first: a source is compiled
into a text exactly if it is read without a fault, its terminals are those of a program, the
program follows the rules for names, and the text is the C text of the program. The grammar, the
rules and the C text are those of the syntax trees, which know nothing of goals and sessions.
-/

namespace BasicCompiler

/-! ## The beginning of a session -/

/-- Everything that is read is well-formed and not the end of the input. -/
theorem Stream.sound_ofCursor (cursor : Cursor) (token : Token)
    (h : .ok token ∈ (ofCursor cursor).pending) :
    token.terminal.WellFormed ∧ token.kind ≠ .endOfInput := by
  induction cursor using Cursor.induction_on with
  | finish cursor text =>
    rw [ofCursor_of_eq_nil text] at h
    cases h
  | lexeme cursor c cs text ih =>
    rw [ofCursor_of_eq_cons text] at h
    rcases List.mem_cons.mp h with hfirst | hothers
    · unfold Lexeme.result at hfirst
      split at hfirst
      · next kind word reading =>
        cases hfirst
        exact Lexeme.isSound_read c cs kind word reading
      · cases hfirst
    · exact ih hothers

namespace Session

/-- A session that begins with a stream has everything in the stream in front of it. -/
theorem sees_of_start {cursor : Cursor} {listing : Listing} {session : Session}
    (h : start (.ofCursor cursor) listing = .ok session) :
    session.Sees (Stream.ofCursor cursor).pending ∧
      session.stream.finish = (Stream.ofCursor cursor).finish ∧
      session.listing = listing ∧ session.scope = .empty := by
  have hsound := Stream.sound_ofCursor cursor
  generalize Stream.ofCursor cursor = stream at h hsound
  have hwell := fun token hmem => (hsound token hmem).1
  have hend := fun token hmem => (hsound token hmem).2
  obtain ⟨pending, finish⟩ := stream
  rcases pending with _ | ⟨first, _ | ⟨second, others⟩⟩
  · cases h
    exact ⟨⟨rfl, rfl, rfl, hwell, hend⟩, rfl, rfl, rfl⟩
  · cases first with
    | error => cases h
    | ok token =>
      cases h
      exact ⟨⟨rfl, rfl, rfl, hwell, hend⟩, rfl, rfl, rfl⟩
  · cases first with
    | error => cases h
    | ok token =>
      cases second with
      | error => cases h
      | ok token' =>
        cases h
        exact ⟨⟨rfl, rfl, rfl, hwell, hend⟩, rfl, rfl, rfl⟩

/-- A session begins if there is no fault in the stream. -/
theorem exists_start {stream : Stream} {tokens : List Token}
    (h : stream.pending = tokens.map .ok) (listing : Listing) :
    ∃ session, start stream listing = .ok session := by
  obtain ⟨pending, finish⟩ := stream
  obtain rfl := h
  rcases tokens with _ | ⟨first, _ | ⟨second, others⟩⟩
  · exact ⟨_, rfl⟩
  · exact ⟨_, rfl⟩
  · exact ⟨_, rfl⟩

end Session

/-! ## The end of a session -/

/-- Lines written at the end of the body. -/
theorem Listing.foldl_writeLine (lines : List String) (listing : Listing) :
    lines.foldl writeLine listing = ⟨listing.header, listing.body ++ unlines lines⟩ := by
  induction lines generalizing listing with
  | nil => simp
  | cons line lines ih =>
    rw [List.foldl_cons, ih]
    simp [writeLine, write, unlines_cons, String.append_assoc]

/-- Lines written at the end of the header. -/
theorem Listing.foldl_writeHeaderLine (lines : List String) (listing : Listing) :
    lines.foldl writeHeaderLine listing = ⟨listing.header ++ unlines lines, listing.body⟩ := by
  induction lines generalizing listing with
  | nil => simp
  | cons line lines ih =>
    rw [List.foldl_cons, ih]
    simp [writeHeaderLine, unlines_cons, String.append_assoc]

/-- The jumps of a finished program are resolved if none is reported. -/
theorem Scope.unresolved?_eq_none_iff {scope : Scope} :
    scope.unresolved? = none ↔ scope.names.Resolved := by
  have hearliest : ∀ jumps, earliest? jumps = none ↔ jumps = [] := by
    intro jumps
    cases jumps <;> simp [earliest?]
  rw [unresolved?, Option.map_eq_none_iff, hearliest, danglingJumps, List.filter_eq_nil_iff]
  simp [Names.Resolved, names]

/-- The terminals of a program are those of its phrase and the end of the input. -/
theorem Program.terminals_eq (program : Program) :
    program.terminals =
      (.ofLines program.blank ++ Statement.listPhrase program.statements : Phrase).terminals ++
        [.endOfInput] := rfl

/-- The phrases of a whole program are those of the trees. -/
theorem Goal.derivesAll_program {phrase : Phrase} :
    DerivesAll [.blankLines, .statements .program] phrase ↔
      ∃ program : Program,
        phrase = .ofLines program.blank ++ Statement.listPhrase program.statements := by
  rw [derivesAll_pair]
  constructor
  · intro h
    obtain ⟨_, _, rfl, ⟨blank, rfl⟩, statements, rfl⟩ := h
    exact ⟨⟨blank, statements⟩, rfl⟩
  · intro h
    obtain ⟨⟨blank, statements⟩, rfl⟩ := h
    exact ⟨_, _, rfl, ⟨blank, rfl⟩, statements, rfl⟩

namespace Session

variable {session after : Session}

/-- The goals of a whole program are orderly. -/
theorem orderly_program : Goal.Orderly [.blankLines, .statements .program] :=
  ⟨by simp, by simp, by simp⟩

/-- The goals of a whole program are predictive. -/
theorem predictive_program : Goal.Predictive [.blankLines, .statements .program] := by
  have hend : ∀ kind, Goal.Front [] kind → Goal.Follow (.statements .program) kind :=
    fun _ front => Goal.front_nil front
  exact ⟨fun _ front => Goal.follow_lines_of_statements hend front, hend, trivial⟩

/-- A run over a whole program has a tree: the tokens in front were those of the program, its names
are noted, and with the last lines the listing is its C text. -/
theorem exists_program_of_run {ahead : List (Except Diagnostic Token)}
    (hsees : session.Sees ahead) (hlisting : session.listing = .empty)
    (hscope : session.scope = .empty)
    (h : session.openProgram.run [.blankLines, .statements .program] = .done after) :
    ∃ (tokens : List Token) (program : Program), ahead = tokens.map .ok ∧
      tokens.map Token.terminal ++ [.endOfInput] = program.terminals ∧
      Names.empty.Admits program.mentions ∧
      after.scope.names = Names.empty.afterAll program.mentions ∧
      after.closeProgram.listing.text = program.text := by
  have hopen : session.openProgram.Sees ahead := hsees.congr rfl rfl rfl
  obtain ⟨phrase, hphrase, hpasses⟩ := run_done hopen h
  obtain ⟨program, rfl⟩ := Goal.derivesAll_program.mp hphrase
  obtain ⟨tokens, rest, rfl, hterminals, hrest⟩ := hpasses.sees hopen
  obtain rfl := hrest.eq_nil (run_done_at_end hopen orderly_program (by simp) h)
  -- The run begins with nothing but the preamble, so what it adds to that is the program's.
  have hscope' : session.openProgram.scope = .empty := hscope
  have hlisting' : session.openProgram.listing = ⟨unlines Fragment.preamble, ""⟩ := by
    rw [openProgram, hlisting, Listing.foldl_writeHeaderLine]
    simp [Listing.empty]
  have hadmits := hpasses.admits
  have hnames := hpasses.names
  have hbody := hpasses.body
  have hheader := hpasses.header (unlines Fragment.preamble)
  rw [hscope', hlisting'] at hheader
  rw [hlisting'] at hbody
  rw [hscope'] at hadmits hnames
  have hdeclared : after.scope.declared = program.variableNames := by
    rw [program.variableNames_eq]
    exact congrArg Names.declared hnames
  refine ⟨tokens, program, List.append_nil _, ?_, hadmits, hnames, ?_⟩
  · rw [hterminals]
    rfl
  · have hclose : after.closeProgram.listing =
        ⟨after.listing.header, after.listing.body ++ unlines Program.footerLines⟩ :=
      Listing.foldl_writeLine _ _
    have hcode : after.listing.body = unlines program.bodyLines :=
      hbody.trans (String.empty_append.trans String.empty_append)
    have hlines : after.listing.header = unlines program.headerLines := by
      rw [hheader String.append_empty.symm, hdeclared, Program.headerLines, unlines_append]
      rfl
    rw [hclose, Listing.text, hcode, hlines, Program.text, unlines_append, unlines_append,
      String.append_assoc]

/-- Work on a whole program is done if its statements are compiled and its jumps are resolved. -/
theorem compileProgram_eq_done_iff :
    session.compileProgram = .done after ↔ ∃ middle,
      session.openProgram.run [.blankLines, .statements .program] = .done middle ∧
        middle.scope.names.Resolved ∧ after = middle.closeProgram := by
  unfold compileProgram
  cases hrun : session.openProgram.run [.blankLines, .statements .program] with
  | stopped diagnostic middle => simp [Outcome.andThen]
  | done middle =>
    have hscope : middle.closeProgram.scope = middle.scope := rfl
    rw [Outcome.andThen, finish, hscope]
    cases hjumps : middle.scope.unresolved? with
    | some diagnostic =>
      have hnot : ¬ middle.scope.names.Resolved := fun hresolved => by
        rw [Scope.unresolved?_eq_none_iff.mpr hresolved] at hjumps
        cases hjumps
      simp [hnot]
    | none =>
      have hresolved := Scope.unresolved?_eq_none_iff.mp hjumps
      constructor
      · intro h
        cases h
        exact ⟨middle, rfl, hresolved, rfl⟩
      · intro h
        obtain ⟨_, ⟨⟩, -, rfl⟩ := h
        rfl

end Session

/-! ## Which sources are compiled -/

/-- A session at the beginning of a source is ready for a whole program. -/
theorem Session.ready_openProgram {session : Session} {ahead : List (Except Diagnostic Token)}
    (hsees : session.Sees ahead) (hscope : session.scope = .empty) :
    session.openProgram.Ready [.blankLines, .statements .program] ahead := by
  refine ⟨hsees.congr rfl rfl rfl, predictive_program, orderly_program, ?_⟩
  show session.scope.names.JumpsAreNames
  rw [hscope]
  intro word hmem
  cases hmem

/-- A source without faults whose terminals are those of a scoped program is not stopped. -/
theorem Session.exists_run_of_program {session : Session} {tokens : List Token} {program : Program}
    (hsees : session.Sees (tokens.map .ok)) (hscope : session.scope = .empty)
    (hterminals : tokens.map Token.terminal ++ [.endOfInput] = program.terminals)
    (hadmits : Names.empty.Admits program.mentions) :
    ∃ after, session.openProgram.run [.blankLines, .statements .program] = .done after := by
  have hscope' : session.openProgram.scope = .empty := hscope
  have hready := ready_openProgram hsees hscope
  cases hrun : session.openProgram.run [.blankLines, .statements .program] with
  | done after => exact ⟨after, rfl⟩
  | stopped diagnostic after =>
    -- The run would be stuck at a token with which the program goes on.
    rcases run_stopped hready hrun with ⟨before, token, hbefore, -, -, hbegins⟩ | ⟨_, _, _, ⟨⟩, _⟩
    refine absurd ⟨_, Goal.derivesAll_program.mpr ⟨program, rfl⟩, ?_, ?_⟩ hbegins
    · rw [hscope']
      exact hadmits
    · have hends : (tokens ++ [Token.endOfInput session.openProgram.stream.finish]).map
          Token.terminal = program.terminals := by
        rw [List.map_append]
        exact hterminals
      rw [← Program.terminals_eq, ← hends]
      exact hbefore.map Token.terminal

/-- A source is compiled into a text if it is read without a fault, its terminals are those of a
program that follows the rules for names, and the text is the C text of that program. -/
theorem compile_eq_ok_iff {source code : String} :
    compile source = .ok code ↔ ∃ (tokens : List Token) (program : Program),
      (Cursor.ofSource source).Reads tokens ∧
        tokens.map Token.terminal = program.terminals ∧ program.Scoped ∧ code = program.text := by
  unfold compile
  constructor
  · intro h
    split at h
    · cases h
    · next session hstart =>
      split at h
      · cases h
      · next after hprogram =>
        cases h
        obtain ⟨hsees, -, hlisting, hscope⟩ := Session.sees_of_start hstart
        obtain ⟨middle, hrun, hresolved, rfl⟩ := Session.compileProgram_eq_done_iff.mp hprogram
        obtain ⟨front, program, hahead, hterminals, hadmits, hnames, htext⟩ :=
          Session.exists_program_of_run hsees hlisting hscope hrun
        refine ⟨_, program, Cursor.reads_iff_pending.mpr ⟨front, hahead, rfl⟩, ?_, ?_, htext⟩
        · rw [List.map_append]
          exact hterminals
        · rw [hnames] at hresolved
          exact Program.scoped_iff.mpr ⟨hadmits, hresolved⟩
  · intro h
    obtain ⟨tokens, program, hreads, hterminals, hscoped, rfl⟩ := h
    obtain ⟨hadmits, hresolved⟩ := Program.scoped_iff.mp hscoped
    obtain ⟨front, hpending, rfl⟩ := Cursor.reads_iff_pending.mp hreads
    rw [List.map_append] at hterminals
    obtain ⟨session, hstart⟩ := Session.exists_start hpending .empty
    obtain ⟨hsees, -, hlisting, hscope⟩ := Session.sees_of_start hstart
    rw [hpending] at hsees
    obtain ⟨middle, hrun⟩ := Session.exists_run_of_program hsees hscope hterminals hadmits
    -- The run has found a tree of its own, which is the given one: no other has its terminals.
    obtain ⟨front', program', hahead, hterminals', -, hnames, htext⟩ :=
      Session.exists_program_of_run hsees hlisting hscope hrun
    obtain rfl : front = front' := (List.map_inj_right fun _ _ => Except.ok.inj).mp hahead
    obtain rfl : program' = program :=
      Program.terminals_injective (hterminals'.symm.trans hterminals)
    rw [← hnames] at hresolved
    have hdone := Session.compileProgram_eq_done_iff.mpr ⟨middle, hrun, hresolved, rfl⟩
    have hsource : Session.start (.ofSource source) .empty = .ok session := hstart
    rw [hsource, ← htext]
    dsimp only
    rw [hdone]

/-- The compiler accepts its language and nothing else: a source is compiled if it is read to its
end without a fault, its terminals can be derived in the grammar, and the names of the derivation
follow the rules. -/
theorem accepts_iff_scoped_program (source : String) :
    (∃ code, compile source = .ok code) ↔
      ∃ (tokens : List Token) (program : Program), (Cursor.ofSource source).Reads tokens ∧
        tokens.map Token.terminal = program.terminals ∧ program.Scoped := by
  constructor
  · intro h
    obtain ⟨code, h⟩ := h
    obtain ⟨tokens, program, hreads, hterminals, hscoped, -⟩ := compile_eq_ok_iff.mp h
    exact ⟨tokens, program, hreads, hterminals, hscoped⟩
  · intro h
    obtain ⟨tokens, program, hreads, hterminals, hscoped⟩ := h
    exact ⟨program.text, compile_eq_ok_iff.mpr ⟨tokens, program, hreads, hterminals, hscoped, rfl⟩⟩

/-- What is written while a source is read is what its one syntax tree is translated into: behind
the header stand the lines of the statements, and behind them the two last lines. -/
theorem body_eq_tree_lines {source code : String} (h : compile source = .ok code) :
    ∃ (tokens : List Token) (program : Program), (Cursor.ofSource source).Reads tokens ∧
      tokens.map Token.terminal = program.terminals ∧
      (∀ other : Program, tokens.map Token.terminal = other.terminals → other = program) ∧
      code = unlines program.headerLines ++ unlines program.bodyLines ++
        unlines Program.footerLines := by
  obtain ⟨tokens, program, hreads, hterminals, -, rfl⟩ := compile_eq_ok_iff.mp h
  refine ⟨tokens, program, hreads, hterminals, fun other hother => ?_, ?_⟩
  · exact Program.terminals_injective (hother.symm.trans hterminals)
  · rw [Program.text, unlines_append, unlines_append]

/-- Two outcomes of a compilation can be compared, so what becomes of one source can be decided. -/
instance decidableEqOutcome : DecidableEq (Except Diagnostic String)
  | .ok code, .ok code' =>
    decidable_of_iff (code = code') ⟨congrArg Except.ok, Except.ok.inj⟩
  | .error diagnostic, .error diagnostic' =>
    decidable_of_iff (diagnostic = diagnostic') ⟨congrArg Except.error, Except.error.inj⟩
  | .ok _, .error _ => isFalse nofun
  | .error _, .ok _ => isFalse nofun

/-- A loop that counts down is translated line by line. -/
theorem body_eq_tree_lines_countdown :
    compile "LET n = 2\nWHILE n > 0 REPEAT\nLET n = n - 1\nENDWHILE\n" =
        .ok ("#include <stdio.h>\nint main(void)\x7b\nfloat n;\n" ++
          "n = 2;\nwhile(n > 0)\x7b\nn = n - 1;\n\x7d\n" ++ "return 0;\n\x7d\n") ∧
      ∃ (tokens : List Token) (program : Program),
        (Cursor.ofSource "LET n = 2\nWHILE n > 0 REPEAT\nLET n = n - 1\nENDWHILE\n").Reads
          tokens ∧
        tokens.map Token.terminal = program.terminals ∧
        (∀ other : Program, tokens.map Token.terminal = other.terminals → other = program) ∧
        "#include <stdio.h>\nint main(void)\x7b\nfloat n;\n" ++
            "n = 2;\nwhile(n > 0)\x7b\nn = n - 1;\n\x7d\n" ++ "return 0;\n\x7d\n" =
          unlines program.headerLines ++ unlines program.bodyLines ++
            unlines Program.footerLines := by
  have h : compile "LET n = 2\nWHILE n > 0 REPEAT\nLET n = n - 1\nENDWHILE\n" =
      .ok ("#include <stdio.h>\nint main(void)\x7b\nfloat n;\n" ++
        "n = 2;\nwhile(n > 0)\x7b\nn = n - 1;\n\x7d\n" ++ "return 0;\n\x7d\n") := by
    decide +kernel
  exact ⟨h, body_eq_tree_lines h⟩

end BasicCompiler
