import BasicCompiler.Compiler.Goal
import BasicCompiler.Listing
import BasicCompiler.Token.Stream

/-!
# Compiler sessions

A session is the state of the compiler: the two tokens in front, the stream behind them, the
listing written so far and the names met so far. `Session.run` meets a stack of goals, from the
first to the last, and stops at the first diagnostic with the session as it stands there: text
that was written and names that were met stay.

The run ends on every input, because every token passed over shortens what is unread, and between
two tokens the weight of the goals falls.
-/

namespace BasicCompiler

/-- The state of the compiler. -/
structure Session where
  stream : Stream
  current : Token
  next : Token
  listing : Listing
  scope : Scope

/-- How some work ends: done, or stopped by a diagnostic. Either way the session goes on from
where the work left it. -/
inductive Outcome where
  | done (session : Session)
  | stopped (diagnostic : Diagnostic) (session : Session)

namespace Outcome

/-- The session in which the work ended. -/
def session : Outcome → Session
  | done session => session
  | stopped _ session => session

/-- The diagnostic that stopped the work, if one did. -/
def diagnostic? : Outcome → Option Diagnostic
  | done _ => none
  | stopped diagnostic _ => some diagnostic

/-- Go on with further work unless the work was stopped. -/
def andThen (outcome : Outcome) (work : Session → Outcome) : Outcome :=
  match outcome with
  | done session => work session
  | stopped diagnostic session => stopped diagnostic session

end Outcome

namespace Token

/-- One for a token of the program, zero for the end of the input. -/
def count (token : Token) : Nat :=
  if token.kind = .endOfInput then 0 else 1

/-- A token counts once at most. -/
theorem count_le_one (token : Token) : token.count ≤ 1 := by
  unfold count
  split <;> omega

/-- A token of the program counts once. -/
theorem count_of_ne_endOfInput {token : Token} (h : token.kind ≠ .endOfInput) :
    token.count = 1 := by
  simp [count, h]

/-- The end of the input does not count. -/
@[simp] theorem count_endOfInput (location : Location) : (endOfInput location).count = 0 := rfl

end Token

namespace Session

/-- A session at the beginning of a stream, with text already in the listing. It needs the first
two tokens, so a fault in one of them is all there is. -/
def start (stream : Stream) (listing : Listing) : Except Diagnostic Session :=
  match stream.next with
  | (.error diagnostic, _) => .error diagnostic
  | (.ok current, stream) =>
    match stream.next with
    | (.error diagnostic, _) => .error diagnostic
    | (.ok next, stream) => .ok ⟨stream, current, next, listing, .empty⟩

/-- Write in the body. -/
def write (session : Session) (text : String) : Session :=
  { session with listing := session.listing.write text }

/-- Pass over the current token. At a lexical fault the tokens in front stay; the stream is behind
the fault. -/
def shift (session : Session) : Outcome :=
  match session.stream.next with
  | (.error diagnostic, stream) => .stopped diagnostic { session with stream }
  | (.ok token, stream) => .done { session with stream, current := session.next, next := token }

/-- Carry out an action. A label can be declared once only; a variable gets its line in the header
at its first declaration. -/
def perform (session : Session) : Action → Outcome
  | .write text => .done (session.write text)
  | .declare name =>
    if name ∈ session.scope.declared then .done session
    else .done
      { session with
        listing := session.listing.writeHeaderLine (Fragment.declaration name)
        scope := session.scope.declare name }
  | .mark name location =>
    if name ∈ session.scope.labels then .stopped (.duplicateLabel name location) session
    else .done { session with scope := session.scope.mark name }
  | .jump name location =>
    .done { session with scope := session.scope.jump name location }

/-! ## Progress -/

/-- The number of tokens and faults that have not been passed over. -/
def unread (session : Session) : Nat :=
  session.current.count + session.next.count + session.stream.pending.length

/-- Writing passes over nothing. -/
@[simp] theorem unread_write (session : Session) (text : String) :
    (session.write text).unread = session.unread := rfl

/-- Passing over a token of the program leaves less unread. -/
theorem unread_lt_of_shift_eq_done {session after : Session} (h : session.shift = .done after)
    (hcurrent : session.current.kind ≠ .endOfInput) : after.unread < session.unread := by
  have one := Token.count_of_ne_endOfInput hcurrent
  unfold shift Stream.next at h
  cases pending : session.stream.pending with
  | nil =>
    simp only [pending] at h
    cases h
    simp only [unread, pending, one, Token.count_endOfInput]
    omega
  | cons result rest =>
    cases result with
    | error diagnostic => simp [pending] at h
    | ok token =>
      simp only [pending] at h
      cases h
      have bound := token.count_le_one
      simp only [unread, pending, one, List.length_cons]
      omega

/-- An action passes over nothing. -/
theorem unread_eq_of_perform_eq_done {session after : Session} {action : Action}
    (h : session.perform action = .done after) : after.unread = session.unread := by
  cases action <;> simp only [perform] at h
  all_goals
    try split at h
  all_goals cases h
  all_goals rfl

/-- Meet the goals, from the first to the last. -/
def run (session : Session) (goals : List Goal) : Outcome :=
  match goals with
  | [] => .done session
  | goal :: rest =>
    match _plan : goal.plan session.scope session.current session.next with
    | .reject diagnostic => .stopped diagnostic session
    | .expand goals => session.run (goals ++ rest)
    | .perform action =>
      match _done : session.perform action with
      | .stopped diagnostic session => .stopped diagnostic session
      | .done session => session.run rest
    | .consume text goals =>
      match _done : (session.write text).shift with
      | .stopped diagnostic session => .stopped diagnostic session
      | .done session => session.run (goals ++ rest)
termination_by Goal.maxWeight * session.unread + Goal.totalWeight goals
decreasing_by
  · have lighter := Goal.weight_lt_of_plan_eq_expand _plan
    simp only [Goal.totalWeight_append, Goal.totalWeight_cons]
    omega
  · have same := unread_eq_of_perform_eq_done _done
    have positive := goal.weight_pos
    simp only [same, Goal.totalWeight_cons]
    omega
  · obtain ⟨hcurrent, light⟩ := Goal.weight_lt_of_plan_eq_consume _plan
    have less := unread_lt_of_shift_eq_done _done hcurrent
    have product := Nat.mul_le_mul_left Goal.maxWeight (Nat.succ_le_of_lt less)
    simp only [unread_write, Nat.mul_succ] at product
    simp only [Goal.totalWeight_append, Goal.totalWeight_cons]
    omega

/-- With no goals left a run is done. -/
@[simp] theorem run_nil (session : Session) : session.run [] = .done session := by
  rw [run]

/-- A run pursues its first goal as planned and then meets the goals that this opens, followed by
the others. -/
theorem run_cons (session : Session) (goal : Goal) (rest : List Goal) :
    session.run (goal :: rest) =
      match goal.plan session.scope session.current session.next with
      | .reject diagnostic => .stopped diagnostic session
      | .expand goals => session.run (goals ++ rest)
      | .perform action => (session.perform action).andThen (·.run rest)
      | .consume text goals => (session.write text).shift.andThen (·.run (goals ++ rest)) := by
  rw [run]
  split <;> rename_i plan <;> simp only [plan]
  · split <;> rename_i done <;> simp only [done, Outcome.andThen]
  · split <;> rename_i done <;> simp only [done, Outcome.andThen]

end Session

end BasicCompiler
