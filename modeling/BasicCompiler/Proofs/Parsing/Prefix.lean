import BasicCompiler.Proofs.Parsing.Completion
import BasicCompiler.Proofs.Parsing.Prediction

/-!
# Viable beginnings

Two questions about a stack of goals and some terminals that come next. `Goal.Viable`: can a
program go on with them and be finished? `Goal.Begins`: does any phrase without a fault in its
names go on with them? Every move carries the answers between the stack in front of it and the
stack behind it, and a goal that turns a token away says no to the second one
(`Planned.not_begins_of_reject`).
-/

namespace BasicCompiler

namespace Goal

/-- Some phrase of the goals goes on with the terminals, is possible where the names are known, and
leaves no jump without its label. -/
def Viable (goals : List Goal) (names : Names) (front : List Terminal) : Prop :=
  ∃ phrase, DerivesAll goals phrase ∧ phrase.Possible names ∧
    (names.afterAll phrase.mentions).Resolved ∧ front <+: phrase.terminals

/-- Some phrase of the goals, with the end of the input behind it, goes on with the terminals and
breaks no rule for names. -/
def Begins (goals : List Goal) (names : Names) (front : List Terminal) : Prop :=
  ∃ phrase, DerivesAll goals phrase ∧ names.Admits phrase.mentions ∧
    front <+: phrase.terminals ++ [.endOfInput]

/-- The first of the terminals that come next is the one in front. -/
theorem lookahead_of_front {phrase : Phrase} {terminal : Terminal} {front : List Terminal}
    (h : terminal :: front <+: phrase.terminals ++ [.endOfInput]) :
    phrase.lookahead = terminal := by
  obtain ⟨rest, h⟩ := h
  unfold Phrase.lookahead
  cases hterminals : phrase.terminals with
  | nil =>
    rw [hterminals] at h
    exact (List.cons.inj h).1.symm
  | cons first terminals =>
    rw [hterminals] at h
    exact (List.cons.inj h).1.symm

/-- An orderly stack without the declaration of a label on top can be met. -/
theorem Orderly.viable {goal : Goal} {rest : List Goal} {names : Names}
    (h : Orderly (goal :: rest)) (hnames : names.JumpsAreNames)
    (hmark : ∀ word location, goal ≠ .act (.mark word location)) :
    Viable (goal :: rest) names [] := by
  have hlast : (goal :: rest).getLast? = some ((goal :: rest).getLast (List.cons_ne_nil _ _)) :=
    List.getLast?_eq_some_getLast _
  have hstack := List.dropLast_concat_getLast (List.cons_ne_nil goal rest)
  rw [h.bottom _ hlast] at hstack
  obtain ⟨phrase, hphrase, hpossible, hresolved⟩ :=
    @exists_completion (goal :: rest).dropLast names hnames
      (fun word location hmem => by
        rcases List.mem_cons.mp (List.dropLast_subset _ hmem) with hgoal | hrest
        · exact hmark word location hgoal.symm
        · exact h.marks word location hrest)
      (fun word location hmem => h.jumps word location (List.dropLast_subset _ hmem))
  rw [hstack] at hphrase
  exact ⟨phrase, hphrase, hpossible, hresolved, List.nil_prefix⟩

/-- What is taken with a well-formed token is possible if the variable that is read has a value. -/
theorem possible_taken {goal : Goal} {token : Token} {names : Names} (text : String)
    (hwell : token.terminal.WellFormed) (hend : token.kind ≠ .endOfInput)
    (hreads : names.Admits (goal.reads token)) : (goal.taken token text).Possible names := by
  refine ⟨fun terminal hmem => ?_, fun terminal hmem => ?_, fun word hmem => ?_, hreads⟩
  · rw [List.mem_singleton.mp hmem]
    exact hwell
  · rw [List.mem_singleton.mp hmem]
    exact hend
  · have hnone : .jump word ∉ goal.reads token := by
      unfold reads
      split
      · split <;> simp
      · simp
    exact absurd hmem hnone

/-- An action has no terminals. -/
theorem Derives.terminals_act {action : Action} {p : Phrase} (h : Derives (.act action) p) :
    p.terminals = [] := by
  cases action <;> subst h <;> rfl

/-- An action is possible if its mentions are admitted, and a jump is to a name. -/
theorem Derives.possible_act {action : Action} {p : Phrase} {names : Names}
    (h : Derives (.act action) p) (hadmits : names.Admits p.mentions)
    (hjump : ∀ word location, action = .jump word location → (Terminal.name word).WellFormed) :
    p.Possible names := by
  refine ⟨?_, ?_, ?_, hadmits⟩
  · rw [h.terminals_act]
    exact List.forall_mem_nil _
  · rw [h.terminals_act]
    exact List.forall_mem_nil _
  · intro word hmem
    cases action with
    | jump other location =>
      obtain rfl := h
      cases List.mem_singleton.mp hmem
      exact hjump word location rfl
    | write | declare | mark =>
      obtain rfl := h
      exact absurd hmem (by simp [Phrase.ofCode, Phrase.ofMention])

/-- An action in front of viable goals leaves them viable. -/
theorem Viable.of_act {action : Action} {rest : List Goal} {names : Names} {p : Phrase}
    {front : List Terminal} (hp : Derives (.act action) p) (hpossible : p.Possible names)
    (h : Viable rest (names.afterAll p.mentions) front) :
    Viable (.act action :: rest) names front := by
  obtain ⟨phrase, hphrase, hpossible', hresolved, hfront⟩ := h
  refine ⟨p ++ phrase, .cons hp hphrase, hpossible.append hpossible', ?_, ?_⟩
  · rw [Phrase.mentions_append, Names.afterAll_append]
    exact hresolved
  · rw [Phrase.terminals_append, hp.terminals_act]
    exact hfront

/-- What goes on behind an action goes on with the goals behind it. -/
theorem Begins.of_act {action : Action} {rest : List Goal} {names : Names} {p : Phrase}
    {front : List Terminal} (hp : Derives (.act action) p)
    (h : Begins (.act action :: rest) names front) :
    Begins rest (names.afterAll p.mentions) front := by
  obtain ⟨phrase, hphrase, hadmits, hfront⟩ := h
  obtain ⟨p', q, rfl, hp', hq⟩ := derivesAll_cons.mp hphrase
  have hsame : p' = p := by cases action <;> exact hp'.trans hp.symm
  subst hsame
  rw [Phrase.terminals_append, hp.terminals_act] at hfront
  exact ⟨q, hq, (Names.admits_append.mp hadmits).2, hfront⟩

/-- No phrase declares a label that is declared already. -/
theorem not_begins_of_mem_labels {word : String} {location : Location} {rest : List Goal}
    {names : Names} {front : List Terminal} (h : word ∈ names.labels) :
    ¬ Begins (.act (.mark word location) :: rest) names front := by
  intro hbegins
  obtain ⟨phrase, hphrase, hadmits, -⟩ := hbegins
  obtain ⟨p, q, rfl, rfl, -⟩ := derivesAll_cons.mp hphrase
  exact hadmits.1 h

end Goal

namespace Planned

open Goal

variable {scope : Scope} {current next : Token} {goal : Goal} {goals rest : List Goal}
  {names : Names} {front : List Terminal}

/-- If the goals in the place of a goal are viable, the goal is. -/
theorem viable_of_expand (h : Planned scope current next goal (.expand goals))
    (hviable : Viable (goals ++ rest) names front) : Viable (goal :: rest) names front := by
  obtain ⟨phrase, hphrase, hothers⟩ := hviable
  obtain ⟨p, q, rfl, hp, hq⟩ := derivesAll_append.mp hphrase
  exact ⟨p ++ q, .cons (h.derives_of_expand hp) hq, hothers⟩

/-- If the goals behind a token are viable, the goal that takes the token is viable with it. -/
theorem viable_of_consume {text : String}
    (h : Planned scope current next goal (.consume text goals))
    (hwell : current.terminal.WellFormed) (hend : current.kind ≠ .endOfInput)
    (hreads : names.Admits (goal.reads current))
    (hviable : Viable (goals ++ rest) names front) :
    Viable (goal :: rest) names (current.terminal :: front) := by
  obtain ⟨phrase, hphrase, hpossible, hresolved, hfront⟩ := hviable
  obtain ⟨p, q, rfl, hp, hq⟩ := derivesAll_append.mp hphrase
  have hbehind : (p ++ q).Possible (names.afterAll (goal.reads current)) := by
    rwa [afterAll_reads]
  refine ⟨goal.taken current text ++ (p ++ q), ?_, ?_, ?_, ?_⟩
  · rw [← Phrase.append_assoc]
    exact .cons (h.derives_of_consume hwell hp) hq
  · exact (possible_taken text hwell hend hreads).append hbehind
  · rw [Phrase.mentions_append, Names.afterAll_append]
    show ((names.afterAll (goal.reads current)).afterAll _).Resolved
    rwa [afterAll_reads]
  · exact List.cons_prefix_cons.mpr ⟨rfl, hfront⟩

/-- A phrase that goes on with the current token goes on with it after a goal is replaced. -/
theorem begins_of_expand (h : Planned scope current next goal (.expand goals))
    (hbegins : Begins (goal :: rest) names (current.terminal :: front)) :
    Begins (goals ++ rest) names (current.terminal :: front) := by
  obtain ⟨phrase, hphrase, hadmits, hfront⟩ := hbegins
  exact ⟨phrase, h.follow_expand hphrase (lookahead_of_front hfront), hadmits, hfront⟩

/-- A phrase that goes on with the current token goes on behind it after the token is taken. -/
theorem begins_of_consume {text : String}
    (h : Planned scope current next goal (.consume text goals))
    (hstack : Predictive (goal :: rest))
    (hbegins : Begins (goal :: rest) names (current.terminal :: front)) :
    Begins (goals ++ rest) names front := by
  obtain ⟨phrase, hphrase, hadmits, hfront⟩ := hbegins
  obtain ⟨q, rfl, hq⟩ := h.follow_consume hstack hphrase (lookahead_of_front hfront)
  have hbehind : (names.afterAll (goal.reads current)).Admits q.mentions :=
    (Names.admits_append.mp hadmits).2
  rw [afterAll_reads] at hbehind
  exact ⟨q, hq, hbehind, (List.cons_prefix_cons.mp hfront).2⟩

/-- Where a goal turns the current token away, no phrase goes on with it. -/
theorem not_begins_of_reject {diagnostic : Diagnostic}
    (h : Planned scope current next goal (.reject diagnostic))
    (hstack : Predictive (goal :: rest)) :
    ¬ Begins (goal :: rest) scope.names (current.terminal :: front) := by
  intro hbegins
  obtain ⟨phrase, hphrase, hadmits, hfront⟩ := hbegins
  obtain ⟨name, mentions, hmentions, hdeclared⟩ :=
    h.follow_reject hstack hphrase (lookahead_of_front hfront)
  rw [hmentions] at hadmits
  exact hdeclared hadmits.1

/-- A token that is turned away is turned away where it stands. -/
theorem location_of_reject {diagnostic : Diagnostic}
    (h : Planned scope current next goal (.reject diagnostic)) :
    diagnostic.location = current.location := by
  cases h <;> rfl

end Planned

end BasicCompiler
