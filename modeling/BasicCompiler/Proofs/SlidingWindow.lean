import BasicCompiler.Proofs.Lexing.Progress
import BasicCompiler.Proofs.RepeatedCalls

/-!
# The window over the tokens

A session that is used for one call of the compiler after the other, as a machine that takes one
turn at a time: `Moment.turn` begins a call, makes one move of it, or ends it, and it counts how
often a result is read from the source. Read `Moment.turned` first: it says what a turn can do to
the two tokens in front. `window_slides` follows: at every moment these are the last two tokens that
have been read, all tokens in front of them have been passed over in order, and every call ends.
-/

namespace BasicCompiler

/-! ## Tokens among the first readings -/

/-- The tokens among the first `count` readings of a source, without the faults. -/
def tokensRead (source : String) (count : Nat) : List Token :=
  tokensOf ((List.range count).map (reading source))

section

variable {source : String} {count : Nat} {token : Token} {diagnostic : Diagnostic}

/-- One more reading that is a token is one more token. -/
theorem tokensRead_succ_of_ok (h : reading source count = .ok token) :
    tokensRead source (count + 1) = tokensRead source count ++ [token] := by
  rw [tokensRead, List.range_succ, List.map_append, tokensOf, List.filterMap_append]
  simp [h, tokensRead, tokensOf, Except.toOption]

/-- One more reading that is a fault is no token. -/
theorem tokensRead_succ_of_error (h : reading source count = .error diagnostic) :
    tokensRead source (count + 1) = tokensRead source count := by
  rw [tokensRead, List.range_succ, List.map_append, tokensOf, List.filterMap_append]
  simp [h, tokensRead, tokensOf, Except.toOption]

/-- From the call that has the number of characters on, the end of the input is read. -/
theorem exists_reading_eq_endOfInput (h : source.toList.length ≤ count) :
    ∃ location, reading source count = .ok (.endOfInput location) := by
  obtain ⟨i, hi, location, hend⟩ := (Cursor.ofSource source).exists_isEnd
  exact ⟨location, (Cursor.reading_of_endOfInput (Nat.le_trans hi h) hend).1⟩

/-- The stream of a source from which some results have been taken gives the next reading. -/
theorem Stream.next_afterReadings (source : String) (count : Nat) :
    (ofCursor ((Cursor.ofSource source).afterReadings count)).next =
      (reading source count, ofCursor ((Cursor.ofSource source).afterReadings (count + 1))) := by
  rw [next_ofCursor, (Cursor.called_reading _ count).next_eq]
  rfl

/-- A source holds no more tokens and faults than characters. -/
theorem Stream.length_pending_le (cursor : Cursor) :
    (ofCursor cursor).pending.length ≤ cursor.rest.length := by
  induction cursor using Cursor.induction_on with
  | finish cursor text =>
    rw [ofCursor_of_eq_nil text]
    exact Nat.zero_le _
  | lexeme cursor c cs text ih =>
    have shorter := Cursor.length_rest_behind_lt text
    rw [ofCursor_of_eq_cons text, List.length_cons]
    omega

end

/-! ## Turns -/

/-- A moment in the use of a session: the goals of the call that is going on, or none between two
calls, the tokens passed over so far, and how often a result has been read. -/
structure Moment where
  session : Session
  goals? : Option (List Goal)
  passed : List Token
  readings : Nat

namespace Moment

/-- The moment at which a session has begun: its two tokens have been read. -/
def beginning (session : Session) : Moment :=
  ⟨session, none, [], 2⟩

/-- One turn. Between two calls the next one begins; in a call its first goal is pursued, which
reads a result if a token is to be passed over; with no goal left the call ends. A diagnostic ends
the call as well. -/
def turn (moment : Moment) : Moment :=
  let session := moment.session
  match moment.goals? with
  | none =>
    { moment with
      session := session.openProgram, goals? := some [.blankLines, .statements .program] }
  | some [] => { moment with session := session.closeProgram, goals? := none }
  | some (goal :: rest) =>
    match goal.plan session.scope session.current session.next with
    | .reject _ => { moment with goals? := none }
    | .expand goals => { moment with goals? := some (goals ++ rest) }
    | .perform action =>
      match session.perform action with
      | .stopped _ after => { moment with session := after, goals? := none }
      | .done after => { moment with session := after, goals? := some rest }
    | .consume text goals =>
      match (session.write text).shift with
      | .stopped _ after => ⟨after, none, moment.passed, moment.readings + 1⟩
      | .done after =>
        ⟨after, some (goals ++ rest), moment.passed ++ [session.current], moment.readings + 1⟩

/-- The moment after a number of turns. -/
def afterTurns (moment : Moment) : Nat → Moment
  | 0 => moment
  | count + 1 => (moment.afterTurns count).turn

/-- One more turn in front is one more turn. -/
theorem afterTurns_succ (moment : Moment) (count : Nat) :
    moment.afterTurns (count + 1) = moment.turn.afterTurns count := by
  induction count with
  | zero => rfl
  | succ count ih => exact congrArg turn ih

/-- Turns in a row. -/
theorem afterTurns_add (moment : Moment) (first second : Nat) :
    moment.afterTurns (first + second) = (moment.afterTurns first).afterTurns second := by
  induction second with
  | zero => rfl
  | succ second ih => exact congrArg turn ih

/-! ## What a turn does to the window -/

/-- What a turn does: it leaves the tokens in front alone, or, if the first of them is not the end
of the input, it reads a result. A fault leaves the tokens in front alone, too; a token comes into
view behind them, and the first of them is passed over. -/
inductive Turned (moment after : Moment) : Prop where
  | still (current : after.session.current = moment.session.current)
      (next : after.session.next = moment.session.next)
      (stream : after.session.stream = moment.session.stream)
      (passed : after.passed = moment.passed) (readings : after.readings = moment.readings)
  | fault {diagnostic : Diagnostic} (kind : moment.session.current.kind ≠ .endOfInput)
      (read : moment.session.stream.next = (.error diagnostic, after.session.stream))
      (current : after.session.current = moment.session.current)
      (next : after.session.next = moment.session.next)
      (passed : after.passed = moment.passed) (readings : after.readings = moment.readings + 1)
  | token {token : Token} (kind : moment.session.current.kind ≠ .endOfInput)
      (read : moment.session.stream.next = (.ok token, after.session.stream))
      (current : after.session.current = moment.session.next)
      (next : after.session.next = token)
      (passed : after.passed = moment.passed ++ [moment.session.current])
      (readings : after.readings = moment.readings + 1)

/-- Every turn does one of these. -/
theorem turned (moment : Moment) : moment.Turned moment.turn := by
  unfold turn
  dsimp only
  split
  · exact .still rfl rfl rfl rfl rfl
  · exact .still rfl rfl rfl rfl rfl
  · next goal rest _ =>
    split
    · exact .still rfl rfl rfl rfl rfl
    · exact .still rfl rfl rfl rfl rfl
    · next action _ =>
      split
      · next after hstopped =>
        obtain ⟨_, _, _, _, _, rfl⟩ := Session.eq_mark_of_perform hstopped
        exact .still rfl rfl rfl rfl rfl
      · next after hdone =>
        cases Session.performed_of_perform hdone <;> exact .still rfl rfl rfl rfl rfl
    · next text goals hplan =>
      have hkind := (Goal.weight_lt_of_plan_eq_consume hplan).1
      split
      · next after hstopped =>
        obtain ⟨stream, hnext, rfl⟩ := Session.shift_eq_stopped hstopped
        exact .fault hkind hnext rfl rfl rfl rfl
      · next after hdone =>
        obtain ⟨token, stream, hnext, rfl⟩ := Session.shift_eq_done hdone
        exact .token hkind hnext rfl rfl rfl rfl

/-- At the end of the input nothing is read and nothing is passed over. -/
theorem Turned.eq_of_endOfInput {moment after : Moment} (h : moment.Turned after)
    (hend : moment.session.current.kind = .endOfInput) :
    after.readings = moment.readings ∧ after.passed = moment.passed := by
  cases h with
  | still _ _ _ passed readings => exact ⟨readings, passed⟩
  | fault kind => exact absurd hend kind
  | token kind => exact absurd hend kind

/-- What holds of a session that reads a source, at every moment: the stream stands where the
results read so far have left it, the tokens among them are those passed over and then the two in
front, and no more results have been read than the source has characters, and two. -/
structure Slides (source : String) (moment : Moment) : Prop where
  stream : moment.session.stream =
    .ofCursor ((Cursor.ofSource source).afterReadings moment.readings)
  window : tokensRead source moment.readings =
    moment.passed ++ [moment.session.current, moment.session.next]
  bounded : moment.readings ≤ source.toList.length + 2

variable {source : String} {moment after : Moment}

/-- If the first token in front is not the end of the input, one more result can be read: the last
two of `length + 2` results are the end of the input. -/
theorem Slides.readings_lt (h : moment.Slides source)
    (hkind : moment.session.current.kind ≠ .endOfInput) :
    moment.readings < source.toList.length + 2 := by
  refine Nat.lt_of_le_of_ne h.bounded fun hlast => hkind ?_
  have hwindow := h.window
  rw [hlast] at hwindow
  obtain ⟨first, hfirst⟩ := exists_reading_eq_endOfInput (Nat.le_refl source.toList.length)
  obtain ⟨second, hsecond⟩ := exists_reading_eq_endOfInput (Nat.le_succ source.toList.length)
  rw [tokensRead_succ_of_ok hsecond, tokensRead_succ_of_ok hfirst, List.append_assoc] at hwindow
  have hpair := List.append_inj_right' hwindow rfl
  rw [← (List.cons.inj hpair).1]
  rfl

/-- A turn keeps the window where it has to be. -/
theorem Slides.of_turned (h : moment.Slides source) (hturned : moment.Turned after) :
    after.Slides source := by
  have hnext := Stream.next_afterReadings source moment.readings
  rw [← h.stream] at hnext
  cases hturned with
  | still current next stream passed readings =>
    refine ⟨?_, ?_, ?_⟩
    · rw [stream, readings, h.stream]
    · rw [readings, h.window, passed, current, next]
    · rw [readings]
      exact h.bounded
  | fault kind read current next passed readings =>
    obtain ⟨hreading, hstream⟩ := Prod.mk.inj (hnext.symm.trans read)
    refine ⟨?_, ?_, ?_⟩
    · rw [readings, ← hstream]
    · rw [readings, tokensRead_succ_of_error hreading, h.window, passed, current, next]
    · rw [readings]
      exact h.readings_lt kind
  | token kind read current next passed readings =>
    obtain ⟨hreading, hstream⟩ := Prod.mk.inj (hnext.symm.trans read)
    refine ⟨?_, ?_, ?_⟩
    · rw [readings, ← hstream]
    · rw [readings, tokensRead_succ_of_ok hreading, h.window, passed, current, next]
      simp
    · rw [readings]
      exact h.readings_lt kind

/-- The window is where it has to be when a session begins. -/
theorem slides_beginning {listing : Listing} {first : Session}
    (h : Session.start (.ofSource source) listing = .ok first) :
    (beginning first).Slides source := by
  have hfirst := Stream.next_afterReadings source 0
  have hsecond := Stream.next_afterReadings source 1
  have hsource : Stream.ofSource source =
      .ofCursor ((Cursor.ofSource source).afterReadings 0) := rfl
  rw [Session.start, hsource, hfirst] at h
  cases hread : reading source 0 with
  | error diagnostic =>
    rw [hread] at h
    cases h
  | ok current =>
    rw [hread] at h
    dsimp only at h
    rw [hsecond] at h
    cases hread' : reading source 1 with
    | error diagnostic =>
      rw [hread'] at h
      cases h
    | ok next =>
      rw [hread'] at h
      cases h
      refine ⟨rfl, ?_, Nat.le_add_left 2 _⟩
      show tokensRead source 2 = [current, next]
      rw [tokensRead_succ_of_ok hread', tokensRead_succ_of_ok hread]
      rfl

/-- After any number of turns the window is where it has to be. -/
theorem Slides.afterTurns (h : moment.Slides source) (count : Nat) :
    (moment.afterTurns count).Slides source := by
  induction count with
  | zero => exact h
  | succ count ih => exact ih.of_turned (turned _)

/-! ## Calls end -/

/-- What is left to do in the call that is going on, in turns. -/
def work (moment : Moment) : Nat :=
  match moment.goals? with
  | none => 0
  | some goals => Goal.maxWeight * moment.session.unread + Goal.totalWeight goals + 1

/-- The session in which the call that is going on ends. -/
def ending (moment : Moment) : Session :=
  match moment.goals? with
  | none => moment.session
  | some goals => ((moment.session.run goals).andThen Session.finish).session

/-- A program is finished by writing its last lines, whether its jumps have labels or not. -/
theorem session_finish (session : Session) : session.finish.session = session.closeProgram := by
  unfold Session.finish
  split
  · rfl
  · rfl

/-- A turn of a call leads towards the session in which the call ends, and leaves less to do. -/
theorem ending_turn {goals : List Goal} (h : moment.goals? = some goals) :
    moment.turn.ending = moment.ending ∧ moment.turn.work < moment.work := by
  obtain ⟨session, goals?, passed, readings⟩ := moment
  cases h
  cases goals with
  | nil =>
    refine ⟨?_, Nat.succ_pos _⟩
    show session.closeProgram = ((session.run []).andThen Session.finish).session
    rw [Session.run_nil]
    exact (session_finish session).symm
  | cons goal rest =>
    have hrun := session.run_cons goal rest
    have hpositive := goal.weight_pos
    unfold turn
    dsimp only
    split
    · next diagnostic hplan =>
      rw [hplan] at hrun
      refine ⟨?_, Nat.succ_pos _⟩
      show session = ((session.run (goal :: rest)).andThen Session.finish).session
      rw [hrun]
      rfl
    · next goals hplan =>
      rw [hplan] at hrun
      have lighter := Goal.weight_lt_of_plan_eq_expand hplan
      refine ⟨?_, ?_⟩
      · simp only [ending, hrun]
      · simp only [work, Goal.totalWeight_append, Goal.totalWeight_cons]
        omega
    · next action hplan =>
      rw [hplan] at hrun
      split
      · next diagnostic after hstopped =>
        refine ⟨?_, Nat.succ_pos _⟩
        simp only [ending, hrun, hstopped, Outcome.andThen, Outcome.session]
      · next after hdone =>
        have same := Session.unread_eq_of_perform_eq_done hdone
        refine ⟨?_, ?_⟩
        · simp only [ending, hrun, hdone, Outcome.andThen]
        · simp only [work, same, Goal.totalWeight_cons]
          omega
    · next text goals hplan =>
      rw [hplan] at hrun
      obtain ⟨hkind, light⟩ := Goal.weight_lt_of_plan_eq_consume hplan
      split
      · next diagnostic after hstopped =>
        refine ⟨?_, Nat.succ_pos _⟩
        simp only [ending, hrun, hstopped, Outcome.andThen, Outcome.session]
      · next after hdone =>
        have less := Session.unread_lt_of_shift_eq_done hdone hkind
        rw [Session.unread_write] at less
        have product := Nat.mul_le_mul_left Goal.maxWeight (Nat.succ_le_of_lt less)
        rw [Nat.mul_succ] at product
        refine ⟨?_, ?_⟩
        · simp only [ending, hrun, hdone, Outcome.andThen]
        · simp only [work, Goal.totalWeight_append, Goal.totalWeight_cons]
          omega

/-- The call that is going on ends after no more turns than it has work to do, and it ends in the
session in which its run ends. -/
theorem exists_end (moment : Moment) :
    ∃ count ≤ moment.work, (moment.afterTurns count).goals? = none ∧
      (moment.afterTurns count).session = moment.ending := by
  induction hwork : moment.work using Nat.strongRecOn generalizing moment with
  | ind work ih =>
    cases hgoals : moment.goals? with
    | none =>
      refine ⟨0, Nat.zero_le _, hgoals, ?_⟩
      simp only [afterTurns, ending, hgoals]
    | some goals =>
      obtain ⟨hending, hless⟩ := ending_turn hgoals
      obtain ⟨count, hcount, hnone, hsession⟩ := ih _ (hwork ▸ hless) moment.turn rfl
      refine ⟨count + 1, by omega, ?_, ?_⟩
      · rw [afterTurns_succ]
        exact hnone
      · rw [afterTurns_succ, hsession, hending]

/-- A turn adds nothing to what is unread. -/
theorem Turned.unread_le (h : moment.Turned after) :
    after.session.unread ≤ moment.session.unread := by
  cases h with
  | still current next stream =>
    rw [Session.unread, current, next, stream]
    exact Nat.le_refl _
  | fault _ read current next =>
    rw [Session.unread, Session.unread, current, next]
    unfold Stream.next at read
    split at read
    · cases read
    · next hpending =>
      obtain ⟨-, hstream⟩ := Prod.mk.inj read
      rw [hpending, ← hstream, List.length_cons]
      dsimp only
      omega
  | @token token _ read current next =>
    rw [Session.unread, Session.unread, current, next]
    have bound := token.count_le_one
    unfold Stream.next at read
    split at read
    · next hpending =>
      obtain ⟨htoken, hstream⟩ := Prod.mk.inj read
      cases htoken
      rw [← hstream, Token.count_endOfInput]
      omega
    · next hpending =>
      obtain ⟨-, hstream⟩ := Prod.mk.inj read
      rw [hpending, ← hstream, List.length_cons]
      dsimp only
      omega

/-- Turns add nothing to what is unread. -/
theorem unread_afterTurns_le (moment : Moment) (count : Nat) :
    (moment.afterTurns count).session.unread ≤ moment.session.unread := by
  induction count with
  | zero => exact Nat.le_refl _
  | succ count ih => exact Nat.le_trans (turned _).unread_le ih

/-- A call that begins takes one turn to begin, and ends after the turns that its work takes. -/
theorem exists_call (h : moment.goals? = none) :
    ∃ count ≤ Goal.maxWeight * moment.session.unread + 4,
      (moment.afterTurns count).goals? = none ∧
        (moment.afterTurns count).session = moment.session.compileProgram.session := by
  obtain ⟨session, goals?, passed, readings⟩ := moment
  cases h
  dsimp only
  obtain ⟨count, hcount, hnone, hsession⟩ := exists_end (turn ⟨session, none, passed, readings⟩)
  have hwork : (turn ⟨session, none, passed, readings⟩).work =
      Goal.maxWeight * session.unread + 2 + 1 := rfl
  refine ⟨count + 1, by omega, ?_, ?_⟩
  · rw [afterTurns_succ]
    exact hnone
  · rw [afterTurns_succ, hsession]
    rfl

end Moment

/-- No more is unread than is in front. -/
theorem Session.Sees.unread_le {session : Session} {ahead : List (Except Diagnostic Token)}
    (h : session.Sees ahead) : session.unread ≤ ahead.length := by
  have hcurrent := session.current.count_le_one
  have hnext := session.next.count_le_one
  rw [unread, h.pending]
  rcases ahead with _ | ⟨first, _ | ⟨second, more⟩⟩
  · rw [← Except.ok.inj h.current, ← Except.ok.inj h.next]
    exact Nat.le_refl 0
  · have hend : session.next.count = 0 := by
      rw [← Except.ok.inj h.next]
      rfl
    simp only [List.drop_succ_cons, List.drop_nil, List.length_cons, List.length_nil]
    omega
  · simp only [List.drop_succ_cons, List.drop_zero, List.length_cons]
    omega

/-- The window slides over the tokens of a source, and no call goes past the end. Let a session read
a source, and let the compiler be called again and again, whether the calls end with diagnostics or
not. At every moment the tokens among the results read so far are those passed over, in order, and
then the two in front, and no more results have been read than the source has characters, and two.
Where the first token in front is the end of the input, nothing is read and nothing is passed over.
Every call ends, after a number of turns that the length of the source bounds. -/
theorem window_slides {source : String} {listing : Listing} {first : Session}
    (h : Session.start (.ofSource source) listing = .ok first) :
    let moment := (Moment.beginning first).afterTurns
    (∀ i, (moment i).Slides source) ∧
      (∀ i, (moment i).session.current.kind = .endOfInput →
        (moment (i + 1)).readings = (moment i).readings ∧
          (moment (i + 1)).passed = (moment i).passed) ∧
      ∀ count, ∃ i ≤ count * (Goal.maxWeight * source.toList.length + 4),
        (moment i).goals? = none ∧ (moment i).session = first.afterCalls count := by
  intro moment
  have hunread : ∀ i, (moment i).session.unread ≤ source.toList.length := fun i =>
    calc (moment i).session.unread
        ≤ first.unread := Moment.unread_afterTurns_le (.beginning first) i
      _ ≤ (Stream.ofSource source).pending.length := (Session.sees_of_start h).1.unread_le
      _ ≤ source.toList.length := Stream.length_pending_le (.ofSource source)
  refine ⟨(Moment.slides_beginning h).afterTurns,
    fun i hend => (moment i).turned.eq_of_endOfInput hend, fun count => ?_⟩
  induction count with
  | zero => exact ⟨0, Nat.zero_le _, rfl, rfl⟩
  | succ count ih =>
    obtain ⟨i, hi, hnone, hsession⟩ := ih
    obtain ⟨turns, hturns, hnone', hsession'⟩ := Moment.exists_call hnone
    have hwork := Nat.mul_le_mul_left Goal.maxWeight (hunread i)
    have hmoment : moment (i + turns) = (moment i).afterTurns turns := Moment.afterTurns_add _ _ _
    refine ⟨i + turns, ?_, ?_, ?_⟩
    · rw [Nat.succ_mul]
      omega
    · rw [hmoment]
      exact hnone'
    · rw [hmoment, hsession', hsession]
      rfl

/-- A call that is stopped by a fault behind the window, one that is stopped at a token, and one
that reaches the end. -/
theorem window_slides_resumed :
    ∃ first, Session.start (.ofSource "LET a ?\nPRINT 1\n") .empty = .ok first ∧
      (first.afterCalls 2).current.kind = .lineEnd ∧
      (first.afterCalls 3).current.kind = .endOfInput ∧
      let moment := (Moment.beginning first).afterTurns
      (∀ i, (moment i).Slides "LET a ?\nPRINT 1\n") ∧
        (∀ i, (moment i).session.current.kind = .endOfInput →
          (moment (i + 1)).readings = (moment i).readings ∧
            (moment (i + 1)).passed = (moment i).passed) ∧
        ∀ count, ∃ i ≤ count * (Goal.maxWeight * "LET a ?\nPRINT 1\n".toList.length + 4),
          (moment i).goals? = none ∧ (moment i).session = first.afterCalls count := by
  have hkinds : ((Session.start (.ofSource "LET a ?\nPRINT 1\n") .empty).map fun first =>
      ((first.afterCalls 2).current.kind, (first.afterCalls 3).current.kind)).toOption =
        some (.lineEnd, .endOfInput) := by
    decide +kernel
  cases h : Session.start (.ofSource "LET a ?\nPRINT 1\n") .empty with
  | error diagnostic =>
    rw [h] at hkinds
    cases hkinds
  | ok first =>
    rw [h] at hkinds
    obtain ⟨hsecond, hthird⟩ := Prod.mk.inj (Option.some.inj hkinds)
    exact ⟨first, rfl, hsecond, hthird, window_slides h⟩

end BasicCompiler
