import BasicCompiler.Compiler.Session
import BasicCompiler.Proofs.Parsing.Planning

/-!
# What a session has in front of it

`Session.Sees` ties a session to the results of reading that it has not passed over: the two tokens
in front and the stream behind them. `Session.Passes` says that work has taken a session over a
phrase: the terminals are behind it, the names are noted and the C text is written. Read
`Session.passes_consume` and `Session.passes_perform` first: every single move passes over what it
takes.
-/

namespace BasicCompiler

/-- A stream ends in the same place whatever is taken from it. -/
theorem Stream.finish_next {stream rest : Stream} {result : Except Diagnostic Token}
    (h : stream.next = (result, rest)) : rest.finish = stream.finish := by
  unfold next at h
  split at h <;> cases h <;> rfl

namespace Session

/-- The results in front of the session, in order, none of which is the end of the input. Behind
the last one stands the end of the input, as often as it is asked for. -/
structure Sees (session : Session) (ahead : List (Except Diagnostic Token)) : Prop where
  current : ahead.getD 0 (.ok (.endOfInput session.stream.finish)) = .ok session.current
  next : ahead.getD 1 (.ok (.endOfInput session.stream.finish)) = .ok session.next
  pending : session.stream.pending = ahead.drop 2
  wellFormed : ∀ token, .ok token ∈ ahead → token.terminal.WellFormed
  not_endOfInput : ∀ token, .ok token ∈ ahead → token.kind ≠ .endOfInput

variable {session after : Session} {ahead : List (Except Diagnostic Token)}

/-- Nothing is in front of a session at the end of the input. -/
theorem Sees.eq_nil (h : session.Sees ahead) (hend : session.current.kind = .endOfInput) :
    ahead = [] := by
  cases ahead with
  | nil => rfl
  | cons result ahead =>
    have hresult : result = .ok session.current := h.current
    exact absurd hend (h.not_endOfInput _ (hresult ▸ List.mem_cons_self))

/-- A token that is not the end of the input is the first one in front of the session. -/
theorem Sees.eq_cons (h : session.Sees ahead) (hend : session.current.kind ≠ .endOfInput) :
    ∃ rest, ahead = .ok session.current :: rest := by
  cases ahead with
  | nil =>
    have hcurrent := Except.ok.inj h.current
    exact absurd (congrArg Token.kind hcurrent.symm) hend
  | cons result ahead =>
    have hresult : result = .ok session.current := h.current
    exact ⟨ahead, congrArg (· :: ahead) hresult⟩

/-- The token in front of a session is well-formed. -/
theorem Sees.current_wellFormed (h : session.Sees ahead) :
    session.current.terminal.WellFormed := by
  cases ahead with
  | nil =>
    rw [← Except.ok.inj h.current]
    rfl
  | cons result ahead =>
    have hresult : result = .ok session.current := h.current
    exact h.wellFormed _ (hresult ▸ List.mem_cons_self)

/-- Passing over a token leaves everything as it was but the tokens in front. -/
theorem shift_eq_done (h : session.shift = .done after) :
    ∃ token stream, session.stream.next = (.ok token, stream) ∧
      after = { session with stream, current := session.next, next := token } := by
  unfold shift at h
  split at h
  · cases h
  · next token stream hnext =>
    cases h
    exact ⟨token, stream, hnext, rfl⟩

/-- A token that cannot be passed over leaves everything as it was, but the fault behind the tokens
in front is gone. -/
theorem shift_eq_stopped {diagnostic : Diagnostic}
    (h : session.shift = .stopped diagnostic after) :
    ∃ stream, session.stream.next = (.error diagnostic, stream) ∧
      after = { session with stream } := by
  unfold shift at h
  split at h
  · next diagnostic' stream hnext =>
    cases h
    exact ⟨stream, hnext, rfl⟩
  · cases h

/-- Behind the token that is passed over stands what stood behind it. -/
theorem Sees.of_shift {result : Except Diagnostic Token} (h : session.Sees (result :: ahead))
    (hshift : session.shift = .done after) : after.Sees ahead := by
  obtain ⟨token, stream, hnext, rfl⟩ := shift_eq_done hshift
  have hwell := fun token hmem => h.wellFormed token (List.mem_cons_of_mem _ hmem)
  have hend := fun token hmem => h.not_endOfInput token (List.mem_cons_of_mem _ hmem)
  have hpending : session.stream.pending = ahead.drop 1 := h.pending
  -- The token that comes into view is the second one of those that are left.
  rcases ahead with _ | ⟨first, _ | ⟨second, more⟩⟩
  · rw [Stream.next, hpending] at hnext
    cases hnext
    exact ⟨h.next, rfl, hpending, hwell, hend⟩
  · rw [Stream.next, hpending] at hnext
    cases hnext
    exact ⟨h.next, rfl, hpending, hwell, hend⟩
  · rw [Stream.next, hpending] at hnext
    cases hnext
    exact ⟨h.next, rfl, rfl, hwell, hend⟩

/-- Where there is no fault ahead, a token can be passed over. -/
theorem Sees.exists_shift {tokens : List Token} (h : session.Sees (tokens.map .ok)) :
    ∃ after, session.shift = .done after := by
  unfold shift
  split
  · next diagnostic stream hnext =>
    unfold Stream.next at hnext
    split at hnext
    · cases hnext
    · next result pending hpending =>
      cases hnext
      have hmem : Except.error diagnostic ∈ tokens.map Except.ok := by
        refine List.mem_of_mem_drop (i := 2) ?_
        rw [← h.pending, hpending]
        exact List.mem_cons_self
      obtain ⟨_, _, ⟨⟩⟩ := List.mem_map.mp hmem
  · exact ⟨_, rfl⟩

/-- What is in front of a session depends on its tokens and its stream only. -/
theorem Sees.congr (h : session.Sees ahead) (hcurrent : after.current = session.current)
    (hnext : after.next = session.next) (hstream : after.stream = session.stream) :
    after.Sees ahead := by
  obtain ⟨current, next, pending, wellFormed, not_endOfInput⟩ := h
  rw [← hcurrent, ← hstream] at current
  rw [← hnext, ← hstream] at next
  rw [← hstream] at pending
  exact ⟨current, next, pending, wellFormed, not_endOfInput⟩

/-! ## Passing over a phrase -/

/-- The header lines for some variables. -/
def declarations (names : List String) : String :=
  unlines (names.map Fragment.declaration)

/-- Work that takes one session to the other passes over the phrase: its terminals were in front
and are behind, its mentions are admitted and noted, its C text is at the end of the body, and the
header declares the variables, if it did before. -/
structure Passes (session : Session) (phrase : Phrase) (after : Session) : Prop where
  sees : ∀ {ahead}, session.Sees ahead → ∃ (tokens : List Token) (rest : _),
    ahead = tokens.map .ok ++ rest ∧ tokens.map Token.terminal = phrase.terminals ∧ after.Sees rest
  finish : after.stream.finish = session.stream.finish
  admits : session.scope.names.Admits phrase.mentions
  names : after.scope.names = session.scope.names.afterAll phrase.mentions
  body : after.listing.body = session.listing.body ++ phrase.code
  header : ∀ front, session.listing.header = front ++ declarations session.scope.declared →
    after.listing.header = front ++ declarations after.scope.declared

/-- Without work nothing is passed over. -/
theorem Passes.refl (session : Session) : Passes session .empty session where
  sees h := ⟨[], _, rfl, rfl, h⟩
  finish := rfl
  admits := trivial
  names := rfl
  body := String.append_empty.symm
  header _ h := h

/-- What is passed over by two pieces of work is passed over by one after the other. -/
theorem Passes.trans {middle : Session} {p q : Phrase} (hp : Passes session p middle)
    (hq : Passes middle q after) : Passes session (p ++ q) after where
  sees h := by
    obtain ⟨tokens, rest, rfl, hterminals, hmiddle⟩ := hp.sees h
    obtain ⟨tokens', rest', rfl, hterminals', hafter⟩ := hq.sees hmiddle
    refine ⟨tokens ++ tokens', rest', ?_, ?_, hafter⟩
    · rw [List.map_append, List.append_assoc]
    · rw [List.map_append, hterminals, hterminals', Phrase.terminals_append]
  finish := hq.finish.trans hp.finish
  admits := Names.admits_append.mpr ⟨hp.admits, hp.names ▸ hq.admits⟩
  names := by rw [hq.names, hp.names, Phrase.mentions_append, Names.afterAll_append]
  body := by rw [hq.body, hp.body, Phrase.code_append, String.append_assoc]
  header front h := hq.header front (hp.header front h)

/-- An action passes over what it stands for. -/
theorem passes_perform {action : Action} (h : session.perform action = .done after) :
    ∃ phrase, Goal.Derives (.act action) phrase ∧ Passes session phrase after := by
  -- No action looks at the tokens, so the same ones are in front behind it.
  have hsees : ∀ {ahead}, after.current = session.current → after.next = session.next →
      after.stream = session.stream → session.Sees ahead →
      ∃ (tokens : List Token) (rest : _), ahead = tokens.map .ok ++ rest ∧
        tokens.map Token.terminal = [] ∧ after.Sees rest :=
    fun hcurrent hnext hstream hsees => ⟨[], _, rfl, rfl, hsees.congr hcurrent hnext hstream⟩
  cases action with
  | write text =>
    cases h
    exact ⟨_, rfl, hsees rfl rfl rfl, rfl, trivial, rfl, rfl, fun _ h => h⟩
  | declare word =>
    refine ⟨_, rfl, ?_⟩
    rw [perform] at h
    split at h
    · next hdeclared =>
      cases h
      have hnames := Scope.names_declare session.scope word
      rw [Scope.declare, if_pos hdeclared] at hnames
      exact ⟨hsees rfl rfl rfl, rfl, ⟨trivial, trivial⟩, hnames, String.append_empty.symm,
        fun _ h => h⟩
    · next hdeclared =>
      cases h
      refine ⟨hsees rfl rfl rfl, rfl, ⟨trivial, trivial⟩, session.scope.names_declare word,
        String.append_empty.symm, fun front hheader => ?_⟩
      rw [Scope.declare, if_neg hdeclared]
      show session.listing.header ++ _ = front ++ unlines ((_ ++ [word]).map _)
      rw [hheader, List.map_append, unlines_append, String.append_assoc]
      simp [declarations, unlines]
  | mark word location =>
    refine ⟨_, rfl, ?_⟩
    rw [perform] at h
    split at h
    · cases h
    · next hlabels =>
      cases h
      exact ⟨hsees rfl rfl rfl, rfl, ⟨hlabels, trivial⟩, rfl, String.append_empty.symm,
        fun _ h => h⟩
  | jump word location =>
    cases h
    have hdeclared : (session.scope.jump word location).declared = session.scope.declared :=
      congrArg Names.declared (session.scope.names_jump word location)
    refine ⟨_, rfl, hsees rfl rfl rfl, rfl, ⟨trivial, trivial⟩,
      session.scope.names_jump word location, String.append_empty.symm, fun front hheader => ?_⟩
    rw [hdeclared]
    exact hheader

/-- Passing over a token takes a session over what the goal takes. -/
theorem passes_consume {goal : Goal} {text : String} {goals : List Goal}
    (hplan : goal.plan session.scope session.current session.next = .consume text goals)
    (hshift : (session.write text).shift = .done after) :
    Passes session (goal.taken session.current text) after := by
  obtain ⟨hend, -⟩ := Goal.weight_lt_of_plan_eq_consume hplan
  obtain ⟨token, stream, hnext, hafter⟩ := shift_eq_done hshift
  have hfinish : stream.finish = session.stream.finish := by
    rw [Stream.finish_next hnext]
    rfl
  have hplanned := Goal.planned_of_plan hplan
  refine ⟨fun hsees => ?_, hafter ▸ hfinish, hplanned.admits_reads, ?_, ?_, fun front hheader => ?_⟩
  · obtain ⟨rest, rfl⟩ := hsees.eq_cons hend
    have hwritten : (session.write text).Sees _ := hsees.congr rfl rfl rfl
    exact ⟨[session.current], rest, rfl, rfl, hwritten.of_shift hshift⟩
  · rw [hafter]
    exact (Goal.afterAll_reads _ _ _).symm
  · rw [hafter]
    rfl
  · rw [hafter]
    exact hheader

end Session

end BasicCompiler
