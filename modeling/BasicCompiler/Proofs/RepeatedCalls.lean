import Mathlib.Data.List.Count
import Mathlib.Data.List.Nodup
import BasicCompiler.Proofs.Language
import BasicCompiler.Proofs.Parsing.Noting

/-!
# Compiling again with the same session

A session goes on from where a call of the compiler has left it, also where the call was stopped in
the middle of a statement. Read `afterCalls_consistent` first: whatever the source, the tokens that
were dropped in front and the text that was there before, the listing and the names agree after
every call, and no call takes back what an earlier one has written or noted.
-/

namespace BasicCompiler

/-! ## Calls and the tokens they pass over -/

/-- The tokens among some results of reading, without the faults. -/
def tokensOf (results : List (Except Diagnostic Token)) : List Token :=
  results.filterMap Except.toOption

/-- The tokens of a stretch without faults and of what is behind it. -/
theorem tokensOf_append (tokens : List Token) (results : List (Except Diagnostic Token)) :
    tokensOf (tokens.map .ok ++ results) = tokens ++ tokensOf results := by
  have hall : (tokens.map Except.ok).filterMap
      (Except.toOption : Except Diagnostic Token → Option Token) = tokens := by
    rw [List.filterMap_map]
    exact List.filterMap_some
  rw [tokensOf, List.filterMap_append, hall]
  rfl

namespace Session

/-- The tokens of the program that a session has in front of it. -/
def upcoming (session : Session) : List Token :=
  [session.current, session.next].filter (fun token => token.kind ≠ .endOfInput) ++
    tokensOf session.stream.pending

/-- The session after some calls of the compiler, each of which goes on where the last one ended,
with a diagnostic or without. -/
def afterCalls (session : Session) : Nat → Session
  | 0 => session
  | count + 1 => (session.afterCalls count).compileProgram.session

/-- The tokens that a call of the compiler passes over: those in front of the session that are no
longer in front of it when the call ends. -/
def passedInCall (session : Session) : List Token :=
  session.upcoming.take
    (session.upcoming.length - session.compileProgram.session.upcoming.length)

/-- The tokens that some calls pass over, call by call. -/
def passedInCalls (session : Session) (count : Nat) : List (List Token) :=
  (List.range count).map fun i => (session.afterCalls i).passedInCall

variable {session after middle : Session} {goals goals' : List Goal} {passed : List Token}
  {ahead : List (Except Diagnostic Token)} {outcome : Outcome}

/-- What is in front of a session are the tokens that it sees. -/
theorem Sees.upcoming_eq (h : session.Sees ahead) : session.upcoming = tokensOf ahead := by
  obtain ⟨hcurrent, hnext, hpending, -, hend⟩ := h
  rcases ahead with _ | ⟨first, _ | ⟨second, more⟩⟩
  · have hcurrent' : session.current = .endOfInput session.stream.finish :=
      (Except.ok.inj hcurrent).symm
    have hnext' : session.next = .endOfInput session.stream.finish := (Except.ok.inj hnext).symm
    simp [upcoming, hcurrent', hnext', hpending, tokensOf, Token.endOfInput]
  · obtain rfl : first = .ok session.current := hcurrent
    have hnext' : session.next = .endOfInput session.stream.finish := (Except.ok.inj hnext).symm
    have hkind := hend session.current List.mem_cons_self
    simp [upcoming, hnext', hpending, tokensOf, Token.endOfInput, hkind, Except.toOption]
  · obtain rfl : first = .ok session.current := hcurrent
    obtain rfl : second = .ok session.next := hnext
    have hkind := hend session.current List.mem_cons_self
    have hkind' := hend session.next (List.mem_cons_of_mem _ List.mem_cons_self)
    simp [upcoming, hpending, tokensOf, hkind, hkind', Except.toOption]

/-- However a run ends, the tokens in front of the session stay; a fault that ends it is gone. -/
theorem Ends.sees (h : Ends session goals outcome) (hsees : session.Sees ahead) :
    ∃ rest, outcome.session.Sees rest ∧ tokensOf rest = tokensOf ahead := by
  cases h with
  | done => exact ⟨ahead, hsees, rfl⟩
  | reject => exact ⟨ahead, hsees, rfl⟩
  | refuse stopped =>
    obtain ⟨_, _, _, _, _, rfl⟩ := eq_mark_of_perform stopped
    exact ⟨ahead, hsees, rfl⟩
  | @fault _ _ text _ _ diagnostic _ stopped =>
    obtain ⟨stream, hnext, rfl⟩ := shift_eq_stopped stopped
    obtain ⟨hcurrent, hahead, hpending, hwell, hend⟩ := hsees
    have hstream : session.stream.next = (.error diagnostic, stream) := hnext
    rw [Stream.next, hpending] at hstream
    rcases ahead with _ | ⟨first, _ | ⟨second, _ | ⟨third, more⟩⟩⟩
    · cases hstream
    · cases hstream
    · cases hstream
    · cases hstream
      refine ⟨first :: second :: more, ⟨hcurrent, hahead, rfl, fun token hmem => ?_,
        fun token hmem => ?_⟩, rfl⟩
      · exact hwell token (by simpa using hmem)
      · exact hend token (by simpa using hmem)

/-! ## What a call adds -/

/-- What work adds to a session: `names` are declared for the first time, and the header, the body
and the names are continued. -/
structure Grows (session : Session) (names : List String) (after : Session) : Prop where
  header : after.listing.header = session.listing.header ++ declarations names
  declared : after.scope.declared = session.scope.declared ++ names
  nodup : session.scope.declared.Nodup → after.scope.declared.Nodup
  body : ∃ text, after.listing.body = session.listing.body ++ text
  labels : session.scope.labels <+: after.scope.labels

/-- Where listing and scope stay, except that the body is continued, nothing else is added. -/
theorem Grows.of_body (hscope : after.scope = session.scope)
    (hheader : after.listing.header = session.listing.header)
    (hbody : ∃ text, after.listing.body = session.listing.body ++ text) :
    Grows session [] after := by
  refine ⟨?_, ?_, ?_, hbody, ?_⟩
  · rw [hheader]
    exact String.append_empty.symm
  · rw [hscope, List.append_nil]
  · rw [hscope]
    exact id
  · exact hscope ▸ List.prefix_rfl

/-- Without work nothing is added. -/
theorem Grows.refl (session : Session) : Grows session [] session :=
  .of_body rfl rfl ⟨"", String.append_empty.symm⟩

/-- What two pieces of work add is added by one after the other. -/
theorem Grows.trans {names names' : List String} (h : Grows session names middle)
    (h' : Grows middle names' after) : Grows session (names ++ names') after := by
  refine ⟨?_, ?_, fun hnodup => h'.nodup (h.nodup hnodup), ?_, h.labels.trans h'.labels⟩
  · rw [h'.header, h.header, String.append_assoc, declarations, declarations, declarations,
      List.map_append, unlines_append]
  · rw [h'.declared, h.declared, List.append_assoc]
  · obtain ⟨text, htext⟩ := h.body
    obtain ⟨text', htext'⟩ := h'.body
    exact ⟨text ++ text', by rw [htext', htext, String.append_assoc]⟩

/-- An action adds at most one declaration, of a variable that is new. -/
theorem Performed.grows {action : Action} (h : Performed session action after) :
    ∃ names, Grows session names after := by
  cases h with
  | write text => exact ⟨[], .of_body rfl rfl ⟨text, rfl⟩⟩
  | known => exact ⟨[], .refl session⟩
  | @fresh name hnew =>
    have hdeclared : (session.scope.declare name).declared = session.scope.declared ++ [name] := by
      rw [Scope.declare, if_neg hnew]
    refine ⟨[name], ?_, hdeclared, fun hnodup => ?_, ⟨"", String.append_empty.symm⟩, ?_⟩
    · simp [Listing.writeHeaderLine, declarations, unlines]
    · rw [hdeclared, ← List.concat_eq_append]
      exact List.Nodup.concat hnew hnodup
    · exact (session.scope.declare_frame name).2 ▸ List.prefix_rfl
  | @mark name location hnew =>
    refine ⟨[], String.append_empty.symm, (List.append_nil _).symm, id,
      ⟨"", String.append_empty.symm⟩, List.prefix_append _ _⟩
  | jump name location =>
    have hdeclared : (session.scope.jump name location).declared = session.scope.declared :=
      congrArg Names.declared (session.scope.names_jump name location)
    refine ⟨[], String.append_empty.symm, ?_, ?_, ⟨"", String.append_empty.symm⟩, ?_⟩
    · rw [hdeclared, List.append_nil]
    · rw [hdeclared]
      exact id
    · exact session.scope.labels_jump name location ▸ List.prefix_rfl

/-- A move continues what is written and noted. -/
theorem Step.grows (h : Step session goals passed after goals') :
    ∃ names, Grows session names after := by
  cases h with
  | expand => exact ⟨[], .refl session⟩
  | perform done => exact (performed_of_perform done).grows
  | @consume _ _ text _ _ plan done =>
    obtain ⟨_, _, _, rfl⟩ := shift_eq_done done
    exact ⟨[], .of_body rfl rfl ⟨text, rfl⟩⟩

/-- Moves continue what is written and noted. -/
theorem Moves.grows (h : Moves session goals passed after goals') :
    ∃ names, Grows session names after := by
  induction h with
  | refl => exact ⟨[], .refl session⟩
  | step _ hstep ih =>
    obtain ⟨names, hmiddle⟩ := ih
    obtain ⟨names', hafter⟩ := hstep.grows
    exact ⟨names ++ names', hmiddle.trans hafter⟩

/-- However a run ends, its end continues the body at most. -/
theorem Ends.grows (h : Ends session goals outcome) : Grows session [] outcome.session := by
  cases h with
  | done => exact .refl session
  | reject => exact .refl session
  | refuse stopped =>
    obtain ⟨_, _, _, _, _, rfl⟩ := eq_mark_of_perform stopped
    exact .refl _
  | @fault _ _ text _ _ _ _ stopped =>
    obtain ⟨stream, _, rfl⟩ := shift_eq_stopped stopped
    exact .of_body rfl rfl ⟨text, rfl⟩

end Session

/-- Noting jumps adds jumps behind those that are noted. -/
theorem Scope.prefix_jumps_jumpAll (scope : Scope) (names : List Token) :
    scope.jumps <+: (scope.jumpAll names).jumps := by
  induction names generalizing scope with
  | nil => exact List.prefix_rfl
  | cons token names ih =>
    refine List.IsPrefix.trans ?_ (ih (scope.jump token.text token.location))
    unfold jump
    split
    · exact List.prefix_rfl
    · exact List.prefix_append _ _

/-- A jump is noted where no jump to the label was noted before. -/
theorem Scope.lookup_jump (scope : Scope) (word name : String) (location : Location) :
    (scope.jump word location).jumps.lookup name =
      (scope.jumps.lookup name).or (if word = name then some location else none) := by
  unfold jump
  split
  · next hmem =>
    by_cases hsame : word = name
    · subst hsame
      obtain ⟨jump, hjump, hword⟩ := List.mem_map.mp hmem
      have hfound : scope.jumps.lookup word ≠ none := by
        rw [Ne, List.lookup_eq_none_iff]
        intro hall
        simpa [hword] using hall jump hjump
      obtain ⟨found, hfound⟩ := Option.ne_none_iff_exists'.mp hfound
      rw [hfound]
      rfl
    · rw [if_neg hsame, Option.or_none]
  · rw [List.lookup_append]
    by_cases hsame : word = name
    · simp [hsame]
    · have hne : (name == word) = false := beq_eq_false_iff_ne.mpr (Ne.symm hsame)
      simp [List.lookup_cons, hsame, hne]

/-- The place that is noted for a jump is that of its first name. -/
theorem Scope.lookup_jumpAll (scope : Scope) (names : List Token) (name : String) :
    (scope.jumpAll names).jumps.lookup name =
      (scope.jumps.lookup name).or ((names.find? (·.text = name)).map Token.location) := by
  induction names generalizing scope with
  | nil => simp [jumpAll]
  | cons token names ih =>
    show ((scope.jump token.text token.location).jumpAll names).jumps.lookup name = _
    rw [ih, lookup_jump, List.find?_cons, Option.or_assoc]
    by_cases hsame : token.text = name
    · simp [hsame]
    · simp [hsame]

/-- No label has two places. -/
theorem Scope.nodup_jumpAll (scope : Scope) (names : List Token)
    (h : (scope.jumps.map Prod.fst).Nodup) :
    ((scope.jumpAll names).jumps.map Prod.fst).Nodup := by
  induction names generalizing scope with
  | nil => exact h
  | cons token names ih =>
    refine ih (scope.jump token.text token.location) ?_
    unfold jump
    split
    · exact h
    · next hnew =>
      rw [List.map_append, List.map_singleton, ← List.concat_eq_append]
      exact List.Nodup.concat hnew h

namespace Session

variable {session after : Session} {passed : List Token}
  {ahead : List (Except Diagnostic Token)}

/-- What a call writes and notes stands behind what was written and noted before: the header gets
the preamble once and a line for each variable that is new, and none is declared twice. -/
structure Continues (session after : Session) : Prop where
  header : ∃ names, after.scope.declared = session.scope.declared ++ names ∧
    after.listing.header = session.listing.header ++
      unlines (Fragment.preamble ++ names.map Fragment.declaration)
  nodup : session.scope.declared.Nodup → after.scope.declared.Nodup
  body : ∃ text, after.listing.body = session.listing.body ++ text
  labels : session.scope.labels <+: after.scope.labels
  jumps : session.scope.jumps <+: after.scope.jumps

/-- A call ends where its run ends; all that it still does is to write the last lines, if the run
is done. -/
theorem compileProgram_session (session : Session) :
    ∃ text, session.compileProgram.session =
      (session.openProgram.run [.blankLines, .statements .program]).session.write text := by
  unfold compileProgram
  cases session.openProgram.run [.blankLines, .statements .program] with
  | stopped diagnostic last =>
    refine ⟨"", ?_⟩
    simp [Outcome.andThen, Outcome.session, write, Listing.write]
  | done last =>
    have hclose : last.closeProgram = last.write (unlines Fragment.epilogue) := by
      rw [closeProgram, Listing.foldl_writeLine]
      rfl
    refine ⟨unlines Fragment.epilogue, ?_⟩
    rw [Outcome.andThen, finish]
    split <;> exact hclose

/-- A call passes over some of the tokens in front of the session, notes the jumps of the statements
among them, and adds something to the session with the preamble written. -/
theorem Sees.exists_call (hsees : session.Sees ahead) :
    ∃ passed names rest, session.compileProgram.session.Sees rest ∧
      session.upcoming = passed ++ session.compileProgram.session.upcoming ∧
      session.compileProgram.session.scope.jumps =
        (session.scope.jumpAll (sites .GOTO passed)).jumps ∧
      Grows session.openProgram names session.compileProgram.session := by
  obtain ⟨passed, middle, goals, hmoves, hends⟩ :=
    exists_moves session.openProgram [.blankLines, .statements .program]
  obtain ⟨text, hfinal⟩ := session.compileProgram_session
  have hopen : session.openProgram.Sees ahead := hsees.congr rfl rfl rfl
  obtain ⟨rest, rfl, hmiddle⟩ := hmoves.sees hopen
  obtain ⟨rest', hlast, htokens⟩ := hends.sees hmiddle
  have hjumps := hends.jumps_eq (hmoves.phase (by simp [Goal.IsPlain]))
  obtain ⟨names, hmoved⟩ := hmoves.grows
  have hgrows := hmoved.trans hends.grows
  rw [List.append_nil] at hgrows
  generalize (session.openProgram.run _).session = last at *
  have hafter : session.compileProgram.session.Sees rest' := by
    rw [hfinal]
    exact hlast.congr rfl rfl rfl
  refine ⟨passed, names, rest', hafter, ?_, ?_, ?_⟩
  · rw [hsees.upcoming_eq, hafter.upcoming_eq, htokens, tokensOf_append]
  · rw [hfinal]
    exact hjumps
  · rw [hfinal, ← List.append_nil names]
    exact hgrows.trans (.of_body rfl rfl ⟨text, rfl⟩)

/-- The tokens that a call passes over are those in front of what is in front of the session when it
ends. -/
theorem passedInCall_eq
    (h : session.upcoming = passed ++ session.compileProgram.session.upcoming) :
    session.passedInCall = passed := by
  rw [passedInCall, h]
  simp

/-- A call leaves the session in front of the tokens that it has not passed over, and notes the
jumps of the statements among those that it has. -/
theorem Sees.passedInCall (hsees : session.Sees ahead) :
    (∃ rest, session.compileProgram.session.Sees rest) ∧
      session.upcoming = session.passedInCall ++ session.compileProgram.session.upcoming ∧
      session.compileProgram.session.scope.jumps =
        (session.scope.jumpAll (sites .GOTO session.passedInCall)).jumps := by
  obtain ⟨passed, names, rest, hrest, hpassed, hjumps, -⟩ := hsees.exists_call
  rw [passedInCall_eq hpassed]
  exact ⟨⟨rest, hrest⟩, hpassed, hjumps⟩

/-- A call continues what was written and noted. -/
theorem Sees.continues (hsees : session.Sees ahead) :
    Continues session session.compileProgram.session := by
  obtain ⟨passed, names, rest, -, -, hjumps, hgrows⟩ := hsees.exists_call
  have hpreamble : session.openProgram.listing.header =
      session.listing.header ++ unlines Fragment.preamble := by
    rw [openProgram, Listing.foldl_writeHeaderLine]
  refine ⟨⟨names, hgrows.declared, ?_⟩, hgrows.nodup, ?_, hgrows.labels, ?_⟩
  · rw [hgrows.header, hpreamble, String.append_assoc, declarations, ← unlines_append]
  · obtain ⟨text, htext⟩ := hgrows.body
    rw [openProgram, Listing.foldl_writeHeaderLine] at htext
    exact ⟨text, htext⟩
  · rw [hjumps]
    exact session.scope.prefix_jumps_jumpAll _

end Session

/-! ## The lines of the header -/

/-- The lines that `count` calls write in the header where the variables are `declared`. -/
structure HeaderLines (count : Nat) (declared lines : List String) : Prop where
  shape : ∀ line ∈ lines, line ∈ Fragment.preamble ∨ ∃ name, line = Fragment.declaration name
  preamble : lines.filter (· ∈ Fragment.preamble) =
    (List.replicate count Fragment.preamble).flatten
  declaration : ∀ name, lines.count (Fragment.declaration name) = if name ∈ declared then 1 else 0

/-- No line of the preamble is a declaration. -/
theorem Fragment.declaration_notMem_preamble (name : String) :
    declaration name ∉ preamble := by
  have hfirst : ∀ line ∈ preamble, line.toList.head? ≠ some 'f' := by decide
  intro hmem
  refine hfirst _ hmem ?_
  simp [declaration, String.toList_append]

/-- The lines of one more call. -/
theorem HeaderLines.append {count : Nat} {declared names lines : List String}
    (h : HeaderLines count declared lines) (hnodup : (declared ++ names).Nodup) :
    HeaderLines (count + 1) (declared ++ names)
      (lines ++ (Fragment.preamble ++ names.map Fragment.declaration)) := by
  have hpreamble : Fragment.preamble.filter (· ∈ Fragment.preamble) = Fragment.preamble := by
    decide
  have hnames : (names.map Fragment.declaration).filter (· ∈ Fragment.preamble) = [] := by
    rw [List.filter_eq_nil_iff]
    intro line hline
    obtain ⟨name, -, rfl⟩ := List.mem_map.mp hline
    simpa using Fragment.declaration_notMem_preamble name
  refine ⟨fun line hline => ?_, ?_, fun name => ?_⟩
  · rcases List.mem_append.mp hline with hline | hline
    · exact h.shape line hline
    · rcases List.mem_append.mp hline with hline | hline
      · exact .inl hline
      · obtain ⟨name, -, rfl⟩ := List.mem_map.mp hline
        exact .inr ⟨name, rfl⟩
  · rw [List.filter_append, List.filter_append, h.preamble, hpreamble, hnames, List.append_nil,
      List.replicate_succ', List.flatten_append]
    simp
  · have hzero : Fragment.preamble.count (Fragment.declaration name) = 0 :=
      List.count_eq_zero.mpr (Fragment.declaration_notMem_preamble name)
    have hcount : (names.map Fragment.declaration).count (Fragment.declaration name) =
        names.count name :=
      List.count_map_of_injective _ _ (fun a b => by simp [Fragment.declaration]) name
    rw [List.count_append, List.count_append, h.declaration, hzero, hcount, ← hnodup.count,
      List.count_append, (List.nodup_append.mp hnodup).1.count, Nat.zero_add]

namespace Session

/-- What holds of a session that began with the `tokens` in front of it and the `listing`, after
calls that have passed over some of the tokens: the header is the one at the beginning and then the
lines of the calls, the variables are those with a line, and each label that is jumped to has the
place of the first jump to it. -/
structure Consistent (tokens : List Token) (listing : Listing) (calls : List (List Token))
    (session : Session) : Prop where
  tokens : tokens = calls.flatten ++ session.upcoming
  header : ∃ lines, session.listing.header = listing.header ++ unlines lines ∧
    HeaderLines calls.length session.scope.declared lines
  nodup : session.scope.declared.Nodup
  jumps : ∀ name, session.scope.jumps.lookup name =
    ((calls.flatMap (sites .GOTO)).find? (·.text = name)).map Token.location
  jumps_nodup : (session.scope.jumps.map Prod.fst).Nodup

variable {tokens : List Token} {listing : Listing} {calls : List (List Token)}

/-- A session that has just begun is consistent. -/
theorem Sees.consistent (hsees : session.Sees ahead) (hscope : session.scope = .empty) :
    Consistent (tokensOf ahead) session.listing [] session := by
  refine ⟨hsees.upcoming_eq.symm, ⟨[], String.append_empty.symm, ?_, rfl, ?_⟩, ?_, ?_, ?_⟩
  · intro line hline
    cases hline
  · intro name
    rw [hscope]
    rfl
  · rw [hscope]
    exact .nil
  · intro name
    rw [hscope]
    rfl
  · rw [hscope]
    exact .nil

/-- A call keeps a session consistent. -/
theorem Consistent.compileProgram (h : Consistent tokens listing calls session)
    (hsees : session.Sees ahead) :
    Consistent tokens listing (calls ++ [session.passedInCall])
      session.compileProgram.session := by
  obtain ⟨-, hpassed, hjumps⟩ := hsees.passedInCall
  have hcontinues := hsees.continues
  obtain ⟨lines, hheader, hlines⟩ := h.header
  obtain ⟨names, hdeclared, hheader'⟩ := hcontinues.header
  have hnodup := hcontinues.nodup h.nodup
  refine ⟨?_, ⟨lines ++ (Fragment.preamble ++ names.map Fragment.declaration), ?_, ?_⟩, hnodup,
    fun name => ?_, ?_⟩
  · rw [h.tokens, hpassed, List.flatten_append, List.append_assoc]
    simp
  · rw [hheader', hheader, String.append_assoc, ← unlines_append]
  · rw [List.length_append, hdeclared]
    exact hlines.append (hdeclared ▸ hnodup)
  · rw [hjumps, Scope.lookup_jumpAll, h.jumps, List.flatMap_append, List.find?_append]
    simp [Option.map_or]
  · rw [hjumps]
    exact session.scope.nodup_jumpAll _ h.jumps_nodup

end Session

/-- What is left of a stream when results are taken from its front. -/
theorem Stream.pending_take (stream : Stream) (count : Nat) :
    (stream.take count).2.pending = stream.pending.drop count := by
  induction count generalizing stream with
  | zero => rfl
  | succ count ih =>
    show (stream.next.2.take count).2.pending = _
    rw [ih, next]
    split
    · next hpending => simp [hpending]
    · next hpending => simp [hpending]

/-- What is left of a stream when results are taken from its front is read from a later place. -/
theorem Stream.exists_cursor_take (cursor : Cursor) (count : Nat) :
    ∃ later, ((ofCursor cursor).take count).2 = ofCursor later := by
  induction count generalizing cursor with
  | zero => exact ⟨cursor, rfl⟩
  | succ count ih =>
    obtain ⟨later, hlater⟩ := ih cursor.next.2
    refine ⟨later, ?_⟩
    show ((ofCursor cursor).next.2.take count).2 = _
    rw [next_ofCursor]
    exact hlater

/-- Calls of the compiler leave a session consistent, whether they end with a diagnostic or not.
Let a session begin behind some tokens of a source, with any text in its listing. After any number
of calls its header is the one at the beginning, then for each call the preamble and lines that
declare variables, and each variable that is declared has one line there; each label that is jumped
to has the place of the first jump to it in any call. One more call continues the header, the body,
and the lists of the variables, the labels and the jumps. -/
theorem afterCalls_consistent {source : String} {skipped : Nat} {listing : Listing}
    {session : Session}
    (h : Session.start ((Stream.ofSource source).take skipped).2 listing = .ok session)
    (count : Nat) :
    Session.Consistent (tokensOf ((Stream.ofSource source).pending.drop skipped)) listing
        (session.passedInCalls count) (session.afterCalls count) ∧
      Session.Continues (session.afterCalls count) (session.afterCalls (count + 1)) := by
  obtain ⟨cursor, hcursor⟩ := Stream.exists_cursor_take (.ofSource source) skipped
  have hcursor' : ((Stream.ofSource source).take skipped).2 = .ofCursor cursor := hcursor
  have hpending := (Stream.ofSource source).pending_take skipped
  rw [hcursor'] at h hpending
  obtain ⟨hsees, -, rfl, hscope⟩ := Session.sees_of_start h
  rw [hpending] at hsees
  have hcalls : ∀ count, (∃ ahead, (session.afterCalls count).Sees ahead) ∧
      Session.Consistent (tokensOf ((Stream.ofSource source).pending.drop skipped))
        session.listing (session.passedInCalls count) (session.afterCalls count) := by
    intro count
    induction count with
    | zero => exact ⟨⟨_, hsees⟩, hsees.consistent hscope⟩
    | succ count ih =>
      obtain ⟨⟨ahead, hahead⟩, hconsistent⟩ := ih
      have hlast : session.passedInCalls (count + 1) =
          session.passedInCalls count ++ [(session.afterCalls count).passedInCall] := by
        simp [Session.passedInCalls, List.range_succ]
      rw [hlast]
      exact ⟨hahead.passedInCall.1, hconsistent.compileProgram hahead⟩
  obtain ⟨⟨ahead, hahead⟩, hconsistent⟩ := hcalls count
  exact ⟨hconsistent, hahead.continues⟩

/-- Three calls that end with a lexical, a syntactic and a semantic diagnostic. The variables of the
first and the third one are declared behind the preambles of these calls, and the label that both
jump to keeps the place of the first jump. -/
theorem afterCalls_consistent_resumed :
    let source := "\nLET a = 1\nGOTO b\nPRINT ?\nLET d = 2\nGOTO b\n"
    let preamble := "#include <stdio.h>\nint main(void)\x7b\n"
    ∃ session, Session.start ((Stream.ofSource source).take 1).2 ⟨"/* kept */\n", ""⟩ =
        .ok session ∧
      (session.afterCalls 3).listing.header =
        "/* kept */\n" ++ preamble ++ "float a;\n" ++ preamble ++ preamble ++ "float d;\n" ∧
      (session.afterCalls 3).scope.declared = ["a", "d"] ∧
      (session.afterCalls 3).scope.jumps = [("b", ⟨3, 6⟩)] ∧
      Session.Consistent (tokensOf ((Stream.ofSource source).pending.drop 1))
        ⟨"/* kept */\n", ""⟩ (session.passedInCalls 3) (session.afterCalls 3) ∧
      Session.Continues (session.afterCalls 3) (session.afterCalls 4) := by
  intro source preamble
  have hthird : ((Session.start ((Stream.ofSource source).take 1).2 ⟨"/* kept */\n", ""⟩).map
      fun session =>
        let after := session.afterCalls 3
        (after.listing.header, after.scope.declared, after.scope.jumps)).toOption =
      some ("/* kept */\n" ++ preamble ++ "float a;\n" ++ preamble ++ preamble ++ "float d;\n",
        ["a", "d"], [("b", ⟨3, 6⟩)]) := by
    decide +kernel
  cases h : Session.start ((Stream.ofSource source).take 1).2 ⟨"/* kept */\n", ""⟩ with
  | error diagnostic =>
    rw [h] at hthird
    cases hthird
  | ok session =>
    rw [h] at hthird
    obtain ⟨hheader, hdeclared, hjumps⟩ :
        (session.afterCalls 3).listing.header = _ ∧ (session.afterCalls 3).scope.declared = _ ∧
          (session.afterCalls 3).scope.jumps = _ := by
      simpa [Except.map, Except.toOption] using hthird
    exact ⟨session, rfl, hheader, hdeclared, hjumps, afterCalls_consistent h 3⟩

end BasicCompiler
