import BasicCompiler.Proofs.Lexing.Readings
import BasicCompiler.Proofs.Parsing.Noting
import BasicCompiler.Proofs.ValidPrefix

/-!
# Which error is reported

The compiler reads two tokens ahead, so a source with a token that cannot stand where it stands and
with characters that form no token has two errors, and the window decides between them. Read
`error_determined_by_window` first: a lexical fault wins exactly if it is read before the compiler
finds out about the other error. `Verdict` lists the three ways in which a compilation can end, and
`verdict` finds the one of a source by looking at where its run ends.
-/

namespace BasicCompiler

/-! ## Errors of a source -/

/-- Nothing is wrong with the source, or only that a jump has no label. -/
def LocallyValid (source : String) : Prop :=
  (∃ code, compile source = .ok code) ∨
    ∃ name location, compile source = .error (.undeclaredLabel name location)

/-- Up to number `k` the readings of the two sources are tokens of the same kinds and texts. -/
def AgreeUpTo (k : Nat) (source other : String) : Prop :=
  ∀ i ≤ k, ∃ token token', reading source i = .ok token ∧ reading other i = .ok token' ∧
    token'.terminal = token.terminal

/-- Whether both readings are tokens, of the same kind and text. -/
def sameTerminal : Except Diagnostic Token → Except Diagnostic Token → Bool
  | .ok token, .ok token' => token'.terminal = token.terminal
  | _, _ => false

theorem sameTerminal_iff {first second : Except Diagnostic Token} :
    sameTerminal first second ↔ ∃ token token', first = .ok token ∧ second = .ok token' ∧
      token'.terminal = token.terminal := by
  cases first <;> cases second <;> simp [sameTerminal]

instance (k : Nat) (source other : String) : Decidable (AgreeUpTo k source other) :=
  decidable_of_iff (∀ i ≤ k, sameTerminal (reading source i) (reading other i))
    (forall₂_congr fun _ _ => sameTerminal_iff)

/-- Sources that agree up to a number agree up to every lower one. -/
theorem AgreeUpTo.mono {k l : Nat} {source other : String} (h : AgreeUpTo k source other)
    (hl : l ≤ k) : AgreeUpTo l source other :=
  fun i hi => h i (Nat.le_trans hi hl)

/-- Some locally valid source begins like the source, up to number `k`. -/
def ViableUpTo (k : Nat) (source : String) : Prop :=
  ∃ other, LocallyValid other ∧ AgreeUpTo k source other

/-- The first reading with which no locally valid source goes on, in front of all faults. -/
structure FirstViolation (source : String) (k : Nat) : Prop where
  read : ∀ i ≤ k, ∃ token, reading source i = .ok token
  not_viable : ¬ ViableUpTo k source
  viable : ∀ i < k, ViableUpTo i source

/-- The first reading that is a fault. -/
structure FirstFault (source : String) (j : Nat) (diagnostic : Diagnostic) : Prop where
  fault : reading source j = .error diagnostic
  read : ∀ i < j, ∃ token, reading source i = .ok token

/-- Reading number `k` is the name of a LABEL statement. -/
def DeclaresLabel (source : String) (k : Nat) (name : String) : Prop :=
  ∃ i first second, k = i + 1 ∧ reading source i = .ok first ∧ first.kind = .keyword .LABEL ∧
    reading source k = .ok second ∧ second.kind = .name ∧ second.text = name

/-- Reading number `k` is the name of a LABEL statement, and of an earlier one. -/
def DeclaresAgain (source : String) (k : Nat) : Prop :=
  ∃ i name, i < k ∧ DeclaresLabel source i name ∧ DeclaresLabel source k name

/-- A source has one first violation at most. -/
theorem FirstViolation.unique {source : String} {k k' : Nat} (h : FirstViolation source k)
    (h' : FirstViolation source k') : k = k' := by
  rcases Nat.lt_trichotomy k k' with hlt | heq | hlt
  · exact absurd (h'.viable k hlt) h.not_viable
  · exact heq
  · exact absurd (h.viable k' hlt) h'.not_viable

/-- No token comes behind the first fault in front of it. -/
theorem FirstFault.le {source : String} {i j : Nat} {diagnostic : Diagnostic}
    (h : FirstFault source j diagnostic)
    (hread : ∀ i' < i, ∃ token, reading source i' = .ok token) : i ≤ j := by
  refine Nat.le_of_not_lt fun hlt => ?_
  obtain ⟨token, htoken⟩ := hread j hlt
  rw [h.fault] at htoken
  cases htoken

/-- A source has one first fault at most. -/
theorem FirstFault.unique {source : String} {j j' : Nat} {diagnostic diagnostic' : Diagnostic}
    (h : FirstFault source j diagnostic) (h' : FirstFault source j' diagnostic') :
    j = j' ∧ diagnostic = diagnostic' := by
  obtain rfl := Nat.le_antisymm (h'.le h.read) (h.le h'.read)
  exact ⟨rfl, Except.error.inj (h.fault.symm.trans h'.fault)⟩

/-! ## Where a run over a source is -/

open Session

/-- A run over the source has passed over the tokens and is at the session and the goals. -/
def Reached (source : String) (passed : List Token) (session : Session) (goals : List Goal) :
    Prop :=
  ∃ first, Session.start (.ofSource source) .empty = .ok first ∧
    Moves first.openProgram [.blankLines, .statements .program] passed session goals

namespace Reached

variable {source : String} {passed : List Token} {session after : Session} {goals : List Goal}

/-- A run over a source begins without names and in front of what the source holds. -/
theorem exists_moves (h : Reached source passed session goals) :
    ∃ first : Session, first.scope = .empty ∧
      first.Ready [.blankLines, .statements .program] (Stream.ofSource source).pending ∧
      first.stream.finish = (Stream.ofSource source).finish ∧
      Moves first [.blankLines, .statements .program] passed session goals := by
  obtain ⟨first, hstart, hmoves⟩ := h
  obtain ⟨hsees, hfinish, -, hscope⟩ := sees_of_start hstart
  exact ⟨first.openProgram, hscope, ready_openProgram hsees hscope, hfinish, hmoves⟩

/-- A run over a source is ready, in front of the results that it has not passed over. -/
theorem ready (h : Reached source passed session goals) :
    ∃ rest, (Stream.ofSource source).pending = passed.map .ok ++ rest ∧
      session.Ready goals rest ∧ session.stream.finish = (Stream.ofSource source).finish := by
  obtain ⟨first, -, hready, hfinish, hmoves⟩ := h.exists_moves
  obtain ⟨rest, hahead, hsession, hsame⟩ := hmoves.ready hready
  exact ⟨rest, hahead, hsession, hsame.trans hfinish⟩

/-- The readings behind the tokens that were passed over. -/
theorem exists_reading (h : Reached source passed session goals) :
    ∃ rest, session.Ready goals rest ∧
      (∀ i token, passed[i]? = some token → reading source i = .ok token) ∧
      ∀ i, reading source (passed.length + i) =
        rest.getD i (.ok (.endOfInput session.stream.finish)) := by
  obtain ⟨rest, hpending, hready, hfinish⟩ := h.ready
  have hreading : ∀ i, reading source i = (passed.map Except.ok ++ rest).getD i
      (.ok (.endOfInput session.stream.finish)) := by
    intro i
    rw [← hpending, hfinish]
    exact Cursor.reading_eq_getD _ i
  refine ⟨rest, hready, fun i token htoken => ?_, fun i => ?_⟩
  · obtain ⟨hi, rfl⟩ := List.getElem?_eq_some_iff.mp htoken
    rw [hreading, List.getD_eq_getElem?_getD, List.getElem?_append_left (by simpa using hi)]
    simp [hi]
  · rw [hreading, List.getD_eq_getElem?_getD, List.getElem?_append_right (by simp)]
    simp

/-- The tokens that were passed over and the two in the window are the first readings. -/
theorem reading_eq (h : Reached source passed session goals) :
    (∀ i token, passed[i]? = some token → reading source i = .ok token) ∧
      reading source passed.length = .ok session.current ∧
      reading source (passed.length + 1) = .ok session.next := by
  obtain ⟨rest, hready, hpassed, hrest⟩ := h.exists_reading
  exact ⟨hpassed, (hrest 0).trans hready.sees.current, (hrest 1).trans hready.sees.next⟩

/-- There is no fault up to the end of the window. -/
theorem exists_token (h : Reached source passed session goals) {i : Nat}
    (hi : i ≤ passed.length + 1) : ∃ token, reading source i = .ok token := by
  obtain ⟨hpassed, hcurrent, hnext⟩ := h.reading_eq
  rcases Nat.lt_or_ge i passed.length with hlt | hge
  · exact ⟨_, hpassed i _ (List.getElem?_eq_getElem hlt)⟩
  · obtain rfl | rfl : i = passed.length ∨ i = passed.length + 1 := by omega
    · exact ⟨_, hcurrent⟩
    · exact ⟨_, hnext⟩

/-- The tokens that were passed over and the current one are the first readings. -/
theorem reading_concat (h : Reached source passed session goals) (i : Nat) (token : Token)
    (htoken : (passed ++ [session.current])[i]? = some token) :
    reading source i = .ok token := by
  obtain ⟨hpassed, hcurrent, -⟩ := h.reading_eq
  rcases Nat.lt_trichotomy i passed.length with hlt | rfl | hgt
  · rw [List.getElem?_append_left hlt] at htoken
    exact hpassed i token htoken
  · rw [List.getElem?_concat_length] at htoken
    cases htoken
    exact hcurrent
  · rw [List.getElem?_eq_none (by simp; omega)] at htoken
    cases htoken

/-- The end of the input is not passed over. -/
theorem ne_endOfInput (h : Reached source passed session goals) :
    ∀ token ∈ passed, token.kind ≠ .endOfInput := by
  obtain ⟨rest, hpending, -⟩ := h.ready
  intro token hmem
  refine (Stream.sound_ofCursor (.ofSource source) token ?_).2
  have hmem' : Except.ok token ∈ (Stream.ofSource source).pending := by
    rw [hpending]
    exact List.mem_append_left _ (List.mem_map_of_mem hmem)
  exact hmem'

/-- The phase of a run over a source. -/
theorem phase (h : Reached source passed session goals) :
    Phase .empty passed session.scope goals := by
  obtain ⟨first, hscope, -, -, hmoves⟩ := h.exists_moves
  rw [← hscope]
  exact hmoves.phase (by simp [Goal.IsPlain])

/-- A fault that keeps the window from moving is the reading behind it. -/
theorem firstFault (h : Reached source passed session goals) {text : String}
    {diagnostic : Diagnostic}
    (hstopped : (session.write text).shift = .stopped diagnostic after) :
    FirstFault source (passed.length + 2) diagnostic := by
  refine ⟨?_, fun i hi => h.exists_token (Nat.le_of_lt_succ hi)⟩
  obtain ⟨rest, hready, -, hrest⟩ := h.exists_reading
  obtain ⟨stream, hnext, -⟩ := shift_eq_stopped hstopped
  have hstream : session.stream.next = (.error diagnostic, stream) := hnext
  rw [Stream.next, hready.sees.pending] at hstream
  rw [hrest 2]
  rcases rest with _ | ⟨first, _ | ⟨second, _ | ⟨third, more⟩⟩⟩
  · cases hstream
  · cases hstream
  · cases hstream
  · exact (Prod.mk.inj hstream).1

/-- No run is stopped by a jump that has no label. -/
theorem ne_undeclaredLabel (h : Reached source passed session goals) {diagnostic : Diagnostic}
    (hends : Ends session goals (.stopped diagnostic after)) (name : String)
    (location : Location) : diagnostic ≠ .undeclaredLabel name location := by
  rintro rfl
  cases hends with
  | reject plan => cases Goal.planned_of_plan plan
  | refuse stopped =>
    obtain ⟨_, _, _, _, ⟨⟩, _⟩ := eq_mark_of_perform stopped
  | fault plan stopped => cases Cursor.category_of_reading (h.firstFault stopped).fault

end Reached

/-- A compilation ends as its run ends, unless a jump has no label. -/
theorem compile_of_start {source : String} {first : Session}
    (hstart : Session.start (.ofSource source) .empty = .ok first) :
    compile source =
      match first.openProgram.run [.blankLines, .statements .program] with
      | .stopped diagnostic _ => .error diagnostic
      | .done after =>
        match after.scope.unresolved? with
        | some diagnostic => .error diagnostic
        | none => .ok after.closeProgram.listing.text := by
  rw [compile, hstart]
  dsimp only
  rw [compileProgram]
  cases first.openProgram.run [.blankLines, .statements .program] with
  | stopped diagnostic after => rfl
  | done after =>
    have hscope : after.closeProgram.scope = after.scope := rfl
    rw [Outcome.andThen, finish, hscope]
    dsimp only
    cases after.scope.unresolved? with
    | some diagnostic => rfl
    | none => rfl

/-- A source is compiled up to a fault among its first two readings, or to the end of a program
whose jumps may lack labels, or to where its run is stopped. -/
theorem compile_cases (source : String) :
    (∃ diagnostic, Session.start (.ofSource source) .empty = .error diagnostic ∧
        compile source = .error diagnostic) ∨
      (∃ (tokens : List Token) (program : Program), (Cursor.ofSource source).Reads tokens ∧
        tokens.map Token.terminal = program.terminals ∧
        Names.empty.Admits program.mentions ∧ LocallyValid source) ∨
      ∃ passed session goals diagnostic after, Reached source passed session goals ∧
        Ends session goals (.stopped diagnostic after) ∧ compile source = .error diagnostic := by
  cases hstart : Session.start (.ofSource source) .empty with
  | error diagnostic =>
    refine .inl ⟨diagnostic, rfl, ?_⟩
    rw [compile, hstart]
  | ok first =>
    right
    have hcompile := compile_of_start hstart
    obtain ⟨passed, session, goals, hmoves, hends⟩ :=
      exists_moves first.openProgram [.blankLines, .statements .program]
    cases hrun : first.openProgram.run [.blankLines, .statements .program] with
    | stopped diagnostic after =>
      rw [hrun] at hcompile hends
      exact .inr ⟨passed, session, goals, diagnostic, after, ⟨first, hstart, hmoves⟩, hends,
        hcompile⟩
    | done after =>
      left
      obtain ⟨hsees, -, hlisting, hscope⟩ := sees_of_start hstart
      obtain ⟨front, program, hahead, hterminals, hadmits, -, -⟩ :=
        exists_program_of_run hsees hlisting hscope hrun
      refine ⟨_, program, Cursor.reads_iff_pending.mpr ⟨front, hahead, rfl⟩, ?_, hadmits, ?_⟩
      · rw [List.map_append]
        exact hterminals
      · rw [hrun] at hcompile
        dsimp only at hcompile
        split at hcompile
        · next diagnostic hunresolved =>
          obtain ⟨jump, -, rfl⟩ := Option.map_eq_some_iff.mp hunresolved
          exact .inr ⟨_, _, hcompile⟩
        · exact .inl ⟨_, hcompile⟩

/-- A session does not begin if one of the first two readings is a fault, which is then all there
is. -/
theorem firstFault_of_start {source : String} {diagnostic : Diagnostic}
    (h : Session.start (.ofSource source) .empty = .error diagnostic) :
    ∃ j ≤ 1, FirstFault source j diagnostic := by
  have hreading : ∀ i, reading source i = (Stream.ofSource source).pending.getD i
      (.ok (.endOfInput (Stream.ofSource source).finish)) :=
    Cursor.reading_eq_getD (.ofSource source)
  generalize Stream.ofSource source = stream at h hreading
  obtain ⟨pending, finish⟩ := stream
  rcases pending with _ | ⟨first, others⟩
  · cases h
  · cases first with
    | error fault =>
      cases h
      exact ⟨0, Nat.zero_le _, hreading 0, fun i hi => absurd hi (Nat.not_lt_zero i)⟩
    | ok token =>
      rcases others with _ | ⟨second, others⟩
      · cases h
      · cases second with
        | error fault =>
          cases h
          refine ⟨1, Nat.le_refl _, hreading 1, fun i hi => ⟨token, ?_⟩⟩
          obtain rfl : i = 0 := by omega
          exact hreading 0
        | ok token' => cases h

/-- A locally valid source has a program that follows the rules for names, jumps aside. -/
theorem LocallyValid.exists_program {source : String} (h : LocallyValid source) :
    ∃ (tokens : List Token) (program : Program), (Cursor.ofSource source).Reads tokens ∧
      tokens.map Token.terminal = program.terminals ∧ Names.empty.Admits program.mentions := by
  -- What stops a compilation otherwise is no jump without its label.
  have hnot : ∀ diagnostic, (∀ name location, diagnostic ≠ .undeclaredLabel name location) →
      compile source ≠ .error diagnostic := by
    intro diagnostic hne herror
    rcases h with ⟨code, hcode⟩ | ⟨name, location, hlabel⟩
    · rw [herror] at hcode
      cases hcode
    · rw [herror] at hlabel
      exact hne name location (Except.error.inj hlabel)
  rcases compile_cases source with ⟨diagnostic, hstart, herror⟩ |
    ⟨tokens, program, hreads, hterminals, hadmits, -⟩ |
    ⟨passed, session, goals, diagnostic, after, hreached, hends, herror⟩
  · refine absurd herror (hnot diagnostic ?_)
    rintro name location rfl
    obtain ⟨j, -, hfault⟩ := firstFault_of_start hstart
    cases Cursor.category_of_reading hfault.fault
  · exact ⟨tokens, program, hreads, hterminals, hadmits⟩
  · exact absurd herror (hnot diagnostic (hreached.ne_undeclaredLabel hends))

/-! ## Viable beginnings of a source -/

section Viable

variable {source : String} {before : List Token} {token : Token}

/-- Tokens whose terminals are viable begin a locally valid source. -/
theorem viableUpTo_of_viable
    (h : Goal.Viable [.blankLines, .statements .program] .empty (before.map Token.terminal))
    (hreading : ∀ i token, before[i]? = some token → reading source i = .ok token) {i : Nat}
    (hi : i < before.length) : ViableUpTo i source := by
  obtain ⟨other, code, tokens, hcompile, hreads, hprefix⟩ := exists_source_of_viable h
  refine ⟨other, .inl ⟨code, hcompile⟩, fun i' hi' => ?_⟩
  have hlt : i' < before.length := Nat.lt_of_le_of_lt hi' hi
  have hterminal := List.prefix_iff_getElem?.mp hprefix i' (by simpa using hlt)
  simp only [List.getElem?_map, List.getElem_map] at hterminal
  obtain ⟨token', htoken', hsame⟩ := Option.map_eq_some_iff.mp hterminal
  exact ⟨_, token', hreading i' _ (List.getElem?_eq_getElem hlt), hreads.reading_eq htoken', hsame⟩

/-- Tokens with which no phrase goes on do not begin a locally valid source. -/
theorem not_viableUpTo
    (h : ¬ Goal.Begins [.blankLines, .statements .program] .empty
      ((before ++ [token]).map Token.terminal))
    (hreading : ∀ i other, (before ++ [token])[i]? = some other → reading source i = .ok other)
    (hend : ∀ token ∈ before, token.kind ≠ .endOfInput) : ¬ ViableUpTo before.length source := by
  intro hviable
  obtain ⟨other, hvalid, hagree⟩ := hviable
  obtain ⟨_, program, hreads, hterminals, hadmits⟩ := hvalid.exists_program
  obtain ⟨front, -, rfl⟩ := Cursor.reads_iff_pending.mp hreads
  have hsource : ∀ i (hi : i < (before ++ [token]).length), ∃ second,
      reading other i = .ok second ∧ second.terminal = (before ++ [token])[i].terminal := by
    intro i hi
    obtain ⟨first, second, hfirst, hsecond, hsame⟩ := hagree i (by simpa [Nat.lt_succ_iff] using hi)
    rw [hreading i _ (List.getElem?_eq_getElem hi)] at hfirst
    cases hfirst
    exact ⟨second, hsecond, hsame⟩
  -- The other source does not end in front of the last of the tokens, which are no ends.
  have hlength : before.length ≤ front.length := by
    refine Nat.le_of_not_lt fun hlt => ?_
    obtain ⟨second, hsecond, hsame⟩ := hsource front.length (by simp; omega)
    have hlast := hreads.reading_eq List.getElem?_concat_length
    cases hlast.symm.trans hsecond
    rw [List.getElem_append_left hlt] at hsame
    exact hend _ (List.getElem_mem hlt) (congrArg Terminal.kind hsame.symm)
  refine h ⟨_, Goal.derivesAll_program.mpr ⟨program, rfl⟩, hadmits, ?_⟩
  rw [← Program.terminals_eq, ← hterminals]
  refine List.prefix_iff_getElem?.mpr fun i hi => ?_
  rw [List.length_map] at hi
  obtain ⟨second, hsecond, hsame⟩ := hsource i hi
  have hi' :
      i < (front ++ [Token.endOfInput (Stream.ofCursor (.ofSource other)).finish]).length := by
    simp only [List.length_append, List.length_singleton] at hi ⊢
    omega
  have hother := hreads.reading_eq (List.getElem?_eq_getElem hi')
  cases hother.symm.trans hsecond
  rw [List.getElem?_map, List.getElem?_eq_getElem hi', List.getElem_map, ← hsame]
  rfl

end Viable

/-! ## Where a run is stopped -/

/-- How a compilation ends. -/
inductive Verdict (source : String) : Prop where
  /-- Nothing is wrong, jumps aside. -/
  | valid (read : ∀ i, ∃ token, reading source i = .ok token) (valid : LocallyValid source)
  /-- The first violation is reported. It is found when the token behind it has been read; if it is
  a label that is declared again, when one more has been read. -/
  | violation {k : Nat} {token : Token} {diagnostic : Diagnostic}
      (first : FirstViolation source k) (token_read : reading source k = .ok token)
      (located : diagnostic.location = token.location)
      (not_lexical : diagnostic.category ≠ .lexical)
      (not_label : ∀ name location, diagnostic ≠ .undeclaredLabel name location)
      (window : ∀ i ≤ k + 1, ∃ token, reading source i = .ok token)
      (again : DeclaresAgain source k → ∃ token, reading source (k + 2) = .ok token)
      (reported : compile source = .error diagnostic)
  /-- The first fault is reported. No violation is found before it is read. -/
  | fault {j : Nat} {diagnostic : Diagnostic} (first : FirstFault source j diagnostic)
      (window : ∀ k, FirstViolation source k → k + 2 ≤ j → DeclaresAgain source k ∧ j = k + 2)
      (reported : compile source = .error diagnostic)

/-- Where some tokens can be passed over and no phrase goes on with the next one, that is the first
violation. -/
theorem firstViolation_of_blocks {source : String} {first : Session} {before : List Token}
    {token : Token} (hscope : first.scope = .empty)
    (h : first.Blocks [.blankLines, .statements .program] before token)
    (hreading : ∀ i other, (before ++ [token])[i]? = some other → reading source i = .ok other)
    (hend : ∀ token ∈ before, token.kind ≠ .endOfInput) : FirstViolation source before.length := by
  obtain ⟨hviable, hbegins⟩ := h
  rw [hscope] at hviable hbegins
  refine ⟨fun i hi => ?_, not_viableUpTo hbegins hreading hend, fun i hi => ?_⟩
  · exact ⟨_, hreading i _ (List.getElem?_eq_getElem (by simp; omega))⟩
  · refine viableUpTo_of_viable hviable (fun i token htoken => hreading i token ?_) hi
    rw [List.getElem?_append_left (List.getElem?_eq_some_iff.mp htoken).1]
    exact htoken

namespace Reached

variable {source : String} {passed : List Token} {session after : Session} {goal : Goal}
  {goals rest : List Goal} {action : Action} {text : String} {diagnostic : Diagnostic}

/-- The current token is the name of a LABEL statement if it is a name behind LABEL. -/
theorem declaresLabel_iff (h : Reached source passed session goals) {name : String} :
    DeclaresLabel source passed.length name ↔ lastKind passed = some (.keyword .LABEL) ∧
      session.current.kind = .name ∧ session.current.text = name := by
  obtain ⟨hpassed, hcurrent, -⟩ := h.reading_eq
  rw [lastKind_eq_some_iff]
  constructor
  · rintro ⟨i, first, second, hlength, hfirst, hlabel, hsecond, hname, htext⟩
    have hi : i < passed.length := by omega
    cases hcurrent.symm.trans hsecond
    cases (hpassed i _ (List.getElem?_eq_getElem hi)).symm.trans hfirst
    exact ⟨⟨i, _, hlength, List.getElem?_eq_getElem hi, hlabel⟩, hname, htext⟩
  · rintro ⟨⟨i, first, hlength, hfirst, hlabel⟩, hname, htext⟩
    exact ⟨i, first, session.current, hlength, hpassed i first hfirst, hlabel, hcurrent, hname,
      htext⟩

/-- A name behind LABEL is not turned away. -/
theorem not_declaresAgain (h : Reached source passed session (goal :: rest))
    (hplan : goal.plan session.scope session.current session.next = .reject diagnostic) :
    ¬ DeclaresAgain source passed.length := by
  intro hagain
  obtain ⟨_, name, -, -, hdeclares⟩ := hagain
  obtain ⟨hlast, hname, -⟩ := h.declaresLabel_iff.mp hdeclares
  have hplanned := Goal.planned_of_plan hplan
  rcases h.phase.cases_of_cons with ⟨_, _, hnone, _⟩ | ⟨use, rfl, _⟩ | ⟨_, rfl, _⟩ | ⟨_, rfl, _⟩
  · exact hnone .label hlast
  · cases hplanned with
    | noName hkind => exact hkind hname
  · cases hplanned
  · cases hplanned

/-- A label that is declared already is declared by the name of an earlier statement. -/
theorem declaresAgain (h : Reached source passed session (.name .label :: rest))
    (hkind : session.current.kind = .name)
    (hmem : session.current.text ∈ session.scope.labels) : DeclaresAgain source passed.length := by
  rcases h.phase.cases_of_cons with ⟨⟨⟩, _⟩ | ⟨_, ⟨⟩, hnoted, hlast, _⟩ | ⟨_, ⟨⟩, _⟩ | ⟨_, ⟨⟩, _⟩
  rw [hnoted.labels] at hmem
  obtain ⟨token, htoken, htext⟩ := List.mem_map.mp hmem
  obtain ⟨i, first, hfirst, hlabel, hsecond, hname⟩ := exists_index_of_mem_sites htoken
  obtain ⟨hpassed, -⟩ := h.reading_eq
  refine ⟨i + 1, token.text, (List.getElem?_eq_some_iff.mp hsecond).1, ?_, ?_⟩
  · exact ⟨i, first, token, rfl, hpassed i first hfirst, hlabel, hpassed _ token hsecond, hname,
      rfl⟩
  · exact h.declaresLabel_iff.mpr ⟨hlast, hkind, htext.symm⟩

/-- A goal that turns the current token away reports the first violation. -/
theorem verdict_of_reject (h : Reached source passed session (goal :: rest))
    (hplan : goal.plan session.scope session.current session.next = .reject diagnostic)
    (herror : compile source = .error diagnostic) : Verdict source := by
  have hplanned := Goal.planned_of_plan hplan
  have hcategory : diagnostic.category ≠ .lexical := by
    cases hplanned <;> simp [Diagnostic.category]
  have hnotAgain := h.not_declaresAgain hplan
  obtain ⟨first, hscope, hready, -, hmoves⟩ := h.exists_moves
  have hblocks := hmoves.blocks_of_reject hready hplan
  exact .violation (firstViolation_of_blocks hscope hblocks h.reading_concat h.ne_endOfInput)
    h.reading_eq.2.1 hplanned.location_of_reject hcategory (h.ne_undeclaredLabel (.reject hplan))
    (fun _ => h.exists_token) (fun hagain => absurd hagain hnotAgain) herror

/-- An action that is not carried out reports the first violation, which is the token in front of
the current one: the name of a label is passed over before it is declared. -/
theorem verdict_of_refuse (h : Reached source passed session (.act action :: rest))
    (hstopped : session.perform action = .stopped diagnostic after)
    (herror : compile source = .error diagnostic) : Verdict source := by
  obtain ⟨word, location, rfl, hmem, rfl, -⟩ := eq_mark_of_perform hstopped
  obtain ⟨first, hstart, hmoves⟩ := id h
  obtain ⟨hsees, -, -, hscope⟩ := sees_of_start hstart
  have hready := ready_openProgram hsees hscope
  rcases hmoves.exists_label hready with ⟨⟨⟩, _⟩ |
    ⟨before, last, others, rfl, hlast, hkind, rfl, rfl, hsame⟩
  have hreached : Reached source before last (.name .label :: others) := ⟨first, hstart, hlast⟩
  rw [hsame] at hmem
  have hblocks := hlast.blocks_of_mem_labels hready hkind hmem
  exact .violation
    (firstViolation_of_blocks hscope hblocks hreached.reading_concat hreached.ne_endOfInput)
    hreached.reading_eq.2.1 rfl (by simp [Diagnostic.category]) (by simp)
    (fun _ => hreached.exists_token) (fun _ => h.exists_token (by simp)) herror

/-- Where a token can be taken, nothing up to it is a violation, except for the name of a label that
is declared again. -/
theorem declaresAgain_of_consume {k : Nat} (h : Reached source passed session (goal :: rest))
    (hplan : goal.plan session.scope session.current session.next = .consume text goals)
    (hviolation : FirstViolation source k) (hk : k ≤ passed.length) :
    DeclaresAgain source k ∧ k = passed.length := by
  obtain ⟨first, hscope, hready, -, hmoves⟩ := h.exists_moves
  by_cases hlabel : goal = .name .label ∧ session.current.text ∈ session.scope.labels
  · obtain ⟨rfl, hmem⟩ := hlabel
    obtain ⟨hkind, -⟩ := Goal.eq_of_require_eq_consume hplan
    have hblocks := hmoves.blocks_of_mem_labels hready hkind hmem
    obtain rfl := hviolation.unique
      (firstViolation_of_blocks hscope hblocks h.reading_concat h.ne_endOfInput)
    exact ⟨h.declaresAgain hkind hmem, rfl⟩
  · have hviable := hmoves.viable_of_consume hready hplan fun hname hmem => hlabel ⟨hname, hmem⟩
    rw [hscope] at hviable
    refine absurd (viableUpTo_of_viable hviable h.reading_concat ?_) hviolation.not_viable
    rw [List.length_append]
    exact Nat.lt_succ_of_le hk

/-- A fault that keeps the window from moving is reported. -/
theorem verdict_of_fault (h : Reached source passed session (goal :: rest))
    (hplan : goal.plan session.scope session.current session.next = .consume text goals)
    (hstopped : (session.write text).shift = .stopped diagnostic after)
    (herror : compile source = .error diagnostic) : Verdict source := by
  refine .fault (h.firstFault hstopped) (fun k hviolation hk => ?_) herror
  obtain ⟨hagain, rfl⟩ := h.declaresAgain_of_consume hplan hviolation (by omega)
  exact ⟨hagain, rfl⟩

end Reached

/-- Every compilation ends in one of the three ways. -/
theorem verdict (source : String) : Verdict source := by
  rcases compile_cases source with ⟨diagnostic, hstart, herror⟩ |
    ⟨tokens, program, hreads, -, -, hvalid⟩ |
    ⟨passed, session, goals, diagnostic, after, hreached, hends, herror⟩
  · obtain ⟨j, hj, hfault⟩ := firstFault_of_start hstart
    exact .fault hfault (fun k _ hk => by omega) herror
  · exact .valid hreads.exists_token hvalid
  · cases hends with
    | reject plan => exact hreached.verdict_of_reject plan herror
    | refuse stopped => exact hreached.verdict_of_refuse stopped herror
    | fault plan stopped => exact hreached.verdict_of_fault plan stopped herror

/-! ## Which error wins -/

/-- The violation is found before reading number `j` is made. It takes the reading behind it to come
into view, and one more for a label that is declared again. -/
def FoundBefore (source : String) (k j : Nat) : Prop :=
  k + 2 ≤ j ∧ (DeclaresAgain source k → k + 3 ≤ j)

namespace Verdict

variable {source : String}

/-- A locally valid source without faults has no violation: it goes on like itself. -/
theorem not_firstViolation (hread : ∀ i, ∃ token, reading source i = .ok token)
    (hvalid : LocallyValid source) (k : Nat) : ¬ FirstViolation source k := by
  intro hviolation
  refine hviolation.not_viable ⟨source, hvalid, fun i _ => ?_⟩
  obtain ⟨token, htoken⟩ := hread i
  exact ⟨token, token, htoken, htoken, rfl⟩

/-- A source without faults has no first one. -/
theorem not_firstFault (hread : ∀ i, ∃ token, reading source i = .ok token) (j : Nat)
    (diagnostic : Diagnostic) : ¬ FirstFault source j diagnostic := by
  intro hfault
  exact absurd (hfault.le fun i (_ : i < j + 1) => hread i) (Nat.not_succ_le_self j)

/-- A violation that is found before the first fault is reported where its token stands. -/
theorem reports_violation (h : Verdict source) {k : Nat} (hviolation : FirstViolation source k)
    (hfound : ∀ j fault, FirstFault source j fault → FoundBefore source k j) :
    ∃ diagnostic token, compile source = .error diagnostic ∧ diagnostic.category ≠ .lexical ∧
      reading source k = .ok token ∧ diagnostic.location = token.location := by
  cases h with
  | valid read valid => exact absurd hviolation (not_firstViolation read valid k)
  | violation first token_read located not_lexical _ _ _ reported =>
    obtain rfl := hviolation.unique first
    exact ⟨_, _, reported, not_lexical, token_read, located⟩
  | fault first window _ =>
    obtain ⟨hbehind, hagain⟩ := hfound _ _ first
    obtain ⟨hdeclares, rfl⟩ := window k hviolation hbehind
    exact absurd (hagain hdeclares) (by omega)

/-- A fault is reported if no violation is found before it. -/
theorem reports_fault (h : Verdict source) {j : Nat} {diagnostic : Diagnostic}
    (hfault : FirstFault source j diagnostic)
    (hnone : ¬ ∃ k, FirstViolation source k ∧ FoundBefore source k j) :
    compile source = .error diagnostic := by
  cases h with
  | valid read _ => exact absurd hfault (not_firstFault read j diagnostic)
  | @violation k _ _ first _ _ _ _ window again _ =>
    have hbehind : k + 2 ≤ j := hfault.le fun i hi => window i (Nat.le_of_lt_succ hi)
    refine absurd ⟨k, first, hbehind, fun hdeclares => ?_⟩ hnone
    -- One more token is read for a label, so the fault is not that reading.
    obtain ⟨token, htoken⟩ := again hdeclares
    refine Nat.lt_of_le_of_ne hbehind fun hsame => ?_
    rw [hsame, hfault.fault] at htoken
    cases htoken
  | fault first _ reported =>
    obtain ⟨-, rfl⟩ := hfault.unique first
    exact reported

/-- A jump without its label is reported only if there is no other error. -/
theorem of_undeclaredLabel (h : Verdict source) {name : String} {location : Location}
    (hcompile : compile source = .error (.undeclaredLabel name location)) :
    (¬ ∃ j fault, FirstFault source j fault) ∧ ¬ ∃ k, FirstViolation source k := by
  cases h with
  | valid read valid =>
    exact ⟨fun ⟨_, _, hfault⟩ => not_firstFault read _ _ hfault,
      fun ⟨_, hviolation⟩ => not_firstViolation read valid _ hviolation⟩
  | violation _ _ _ _ not_label _ _ reported =>
    exact absurd (Except.error.inj (reported.symm.trans hcompile)) (not_label name location)
  | fault first _ reported =>
    cases Except.error.inj (reported.symm.trans hcompile)
    cases Cursor.category_of_reading first.fault

/-- Without another error, only a jump can be wrong. -/
theorem locallyValid (h : Verdict source) (hfault : ¬ ∃ j fault, FirstFault source j fault)
    (hviolation : ¬ ∃ k, FirstViolation source k) : LocallyValid source := by
  cases h with
  | valid _ valid => exact valid
  | violation first => exact absurd ⟨_, first⟩ hviolation
  | fault first => exact absurd ⟨_, _, first⟩ hfault

end Verdict

/-- Of the first violation and the first fault of a source, the one that is found first is reported:
the violation where its token stands, or else the fault as it was read. A jump without its label is
reported only if there is neither, and then nothing else is. -/
theorem error_determined_by_window (source : String) :
    (∀ k, FirstViolation source k →
      (∀ j fault, FirstFault source j fault → FoundBefore source k j) →
      ∃ diagnostic token, compile source = .error diagnostic ∧ diagnostic.category ≠ .lexical ∧
        reading source k = .ok token ∧ diagnostic.location = token.location) ∧
    (∀ j fault, FirstFault source j fault →
      (¬ ∃ k, FirstViolation source k ∧ FoundBefore source k j) →
      compile source = .error fault) ∧
    (∀ name location, compile source = .error (.undeclaredLabel name location) →
      (¬ ∃ j fault, FirstFault source j fault) ∧ ¬ ∃ k, FirstViolation source k) ∧
    ((¬ ∃ j fault, FirstFault source j fault) → (¬ ∃ k, FirstViolation source k) →
      LocallyValid source) := by
  have h := verdict source
  exact ⟨fun k => h.reports_violation, fun j fault => h.reports_fault,
    fun name location => h.of_undeclaredLabel, h.locallyValid⟩

/-- Behind a label that is declared again, a fault is reported if it comes second, and the label is
reported if it comes third. -/
theorem error_determined_by_window_label_again :
    (DeclaresAgain "LABEL a\nLABEL a\n@" 4 ∧
      FirstFault "LABEL a\nLABEL a\n@" 6 (.lexical (.unexpectedCharacter '@') ⟨3, 1⟩) ∧
      compile "LABEL a\nLABEL a\n@" = .error (.lexical (.unexpectedCharacter '@') ⟨3, 1⟩)) ∧
    FirstFault "LABEL a\nLABEL a\n\n@" 7 (.lexical (.unexpectedCharacter '@') ⟨4, 1⟩) ∧
      ∃ k, FirstViolation "LABEL a\nLABEL a\n\n@" k ∧ FoundBefore "LABEL a\nLABEL a\n\n@" k 7 ∧
      ∃ diagnostic token, compile "LABEL a\nLABEL a\n\n@" = .error diagnostic ∧
        diagnostic.category ≠ .lexical ∧ reading "LABEL a\nLABEL a\n\n@" k = .ok token ∧
        diagnostic.location = token.location := by
  have hfault : FirstFault "LABEL a\nLABEL a\n@" 6
      (.lexical (.unexpectedCharacter '@') ⟨3, 1⟩) := by
    refine ⟨rfl, fun i hi => ?_⟩
    match i, hi with
    | 0, _ | 1, _ | 2, _ | 3, _ | 4, _ | 5, _ => exact ⟨_, rfl⟩
  have hfault' : FirstFault "LABEL a\nLABEL a\n\n@" 7
      (.lexical (.unexpectedCharacter '@') ⟨4, 1⟩) := by
    refine ⟨rfl, fun i hi => ?_⟩
    match i, hi with
    | 0, _ | 1, _ | 2, _ | 3, _ | 4, _ | 5, _ | 6, _ => exact ⟨_, rfl⟩
  have hagain : DeclaresAgain "LABEL a\nLABEL a\n@" 4 :=
    ⟨1, "a", by decide, ⟨0, _, _, rfl, rfl, rfl, rfl, rfl, rfl⟩,
      ⟨3, _, _, rfl, rfl, rfl, rfl, rfl, rfl⟩⟩
  refine ⟨⟨hagain, hfault, (error_determined_by_window _).2.1 6 _ hfault ?_⟩, hfault', ?_⟩
  · rintro ⟨k, hviolation, hbehind, hlabel⟩
    rcases Nat.lt_or_ge 3 k with hk | hk
    · obtain rfl : k = 4 := by omega
      exact absurd (hlabel hagain) (by decide)
    · -- With another name, the first four tokens begin a source that only lacks a label.
      have hother : compile "LABEL a\nLABEL b\nGOTO c\n" =
          .error (.undeclaredLabel "c" ⟨3, 6⟩) := by
        decide +kernel
      have hagree : AgreeUpTo 3 "LABEL a\nLABEL a\n@" "LABEL a\nLABEL b\nGOTO c\n" := by
        decide +kernel
      exact hviolation.not_viable ⟨_, .inr ⟨_, _, hother⟩, hagree.mono hk⟩
  · have hlabel : compile "LABEL a\nLABEL a\n\n@" = .error (.duplicateLabel "a" ⟨2, 7⟩) := by
      decide +kernel
    obtain ⟨k, hviolation, hfound⟩ : ∃ k, FirstViolation "LABEL a\nLABEL a\n\n@" k ∧
        FoundBefore "LABEL a\nLABEL a\n\n@" k 7 := by
      refine Classical.byContradiction fun hnone => ?_
      cases hlabel.symm.trans ((error_determined_by_window _).2.1 7 _ hfault' hnone)
    refine ⟨k, hviolation, hfound, (error_determined_by_window _).1 k hviolation ?_⟩
    intro j fault hj
    obtain ⟨rfl, -⟩ := hj.unique hfault'
    exact hfound

end BasicCompiler
