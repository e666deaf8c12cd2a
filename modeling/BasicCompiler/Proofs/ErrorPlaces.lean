import Mathlib.Data.List.Nodup
import BasicCompiler.Proofs.DanglingJumps
import BasicCompiler.Proofs.Lexing.Progress

/-!
# What stands where an error is reported

`Concerns` says of a diagnostic and an offset in the source what has to stand there: the token that
is turned away, the name that is used wrongly, or the characters that form no token. Read
`error_concerns_its_place` first: every diagnostic is placed by counting lines and columns up to an
offset, and the source has there what the diagnostic is about.
-/

namespace BasicCompiler

/-! ## What a diagnostic is about -/

/-- Reading number `k` is the token, and the source has it behind its first `p` characters. -/
structure TokenAt (source : String) (p k : Nat) (token : Token) : Prop where
  read : reading source k = .ok token
  lexeme_begins : token.terminal.lexeme <+: source.toList.drop p
  at_end : token.kind = .endOfInput → p = source.toList.length

/-- Reading number `k` is the name, and the reserved word is the reading in front of it. -/
def NamedBehind (word : Keyword) (source : String) (k : Nat) (name : String) : Prop :=
  ∃ i first second, k = i + 1 ∧ reading source i = .ok first ∧ first.kind = .keyword word ∧
    reading source k = .ok second ∧ second.kind = .name ∧ second.text = name

/-- Reading number `k` is where the operand of an expression stands: some source that is compiled
has the same tokens in front of it and a number, which is always an operand, in its place. -/
def OperandAt (source : String) (k : Nat) : Prop :=
  ∃ other code token, compile other = .ok code ∧ (∀ i < k, AgreeUpTo i source other) ∧
    reading other k = .ok token ∧ token.kind = .number

/-- The words of a message quote the token: its text without the white space around it, and its
kind. -/
def Quotes (message : String) (token : Token) : Prop :=
  ∃ before behind, message =
    before ++ ("'" ++ Text.trim token.text ++ "' (" ++ token.kind.title ++ ")") ++ behind

/-- The diagnostic is about what the source has behind its first `p` characters. -/
inductive Concerns (source : String) (p : Nat) : Diagnostic → Prop where
  /-- The first character of something malformed. -/
  | malformed {k : Nat} {fault : LexicalFault} {location : Location} {taken rest : List Char}
      (read : reading source k = .error (.lexical fault location))
      (text : source.toList.drop p = taken ++ rest) (h : Malformed fault taken rest)
      (hfault : ∀ c, fault ≠ .illegalInText c) : Concerns source p (.lexical fault location)
  /-- A character that the quoted text in front of it cannot hold. -/
  | illegal {k : Nat} {c : Char} {location : Location} {front taken rest : List Char}
      (read : reading source k = .error (.lexical (.illegalInText c) location))
      (before : source.toList.take p = front ++ taken) (text : source.toList.drop p = c :: rest)
      (h : Malformed (.illegalInText c) taken (c :: rest)) :
      Concerns source p (.lexical (.illegalInText c) location)
  /-- A token of another kind than the one required. -/
  | unexpected {k : Nat} {token : Token} {expected : Kind} (h : TokenAt source p k token)
      (hkind : token.kind ≠ expected) :
      Concerns source p (.unexpectedToken expected token.kind token.text token.location)
  /-- A token that the message quotes. -/
  | misplaced {k : Nat} {token : Token} {fault : GrammarFault} (h : TokenAt source p k token)
      (hquoted : Quotes (fault.detail token.kind token.text) token) :
      Concerns source p (.misplacedToken fault token.kind token.text token.location)
  /-- A name that is the operand of an expression. -/
  | undeclaredVariable {k : Nat} {token : Token} (h : TokenAt source p k token)
      (hkind : token.kind = .name) (hoperand : OperandAt source k) :
      Concerns source p (.undeclaredVariable token.text token.location)
  /-- The name of the second LABEL statement with that name. -/
  | duplicateLabel {k : Nat} {token : Token} (h : TokenAt source p k token)
      (hlabel : NamedBehind .LABEL source k token.text)
      (hsecond : ∃! j, j < k ∧ NamedBehind .LABEL source j token.text) :
      Concerns source p (.duplicateLabel token.text token.location)
  /-- The name of the first GOTO statement with that name. -/
  | undeclaredLabel {k : Nat} {token : Token} (h : TokenAt source p k token)
      (hjump : NamedBehind .GOTO source k token.text)
      (hfirst : ∀ j < k, ¬ NamedBehind .GOTO source j token.text) :
      Concerns source p (.undeclaredLabel token.text token.location)

/-- Whatever a token is misplaced for, the message quotes it. -/
theorem quotes_detail (fault : GrammarFault) (token : Token) :
    Quotes (fault.detail token.kind token.text) token := by
  cases fault with
  | noStatement hint => exact ⟨_, _, rfl⟩
  | noComparison => exact ⟨_, "", String.append_empty.symm⟩
  | noOperand => exact ⟨_, _, rfl⟩

/-- The diagnostic is placed behind some first characters of the source, and it is about what the
source has there. -/
def Pinpoints (source : String) (diagnostic : Diagnostic) : Prop :=
  ∃ p ≤ source.toList.length, diagnostic.location = .counted (source.toList.take p) ∧
    Concerns source p diagnostic

section

variable {source : String} {k : Nat} {token : Token} {diagnostic : Diagnostic}

/-- Every reading that is a token stands in the source where its place says. -/
theorem exists_tokenAt (h : reading source k = .ok token) :
    ∃ p ≤ source.toList.length, token.location = .counted (source.toList.take p) ∧
      TokenAt source p k token := by
  obtain ⟨front, htext, hlocation⟩ := exists_front_of_token h
  have hlength : front.length ≤ source.toList.length := by
    rw [htext, List.length_append]
    omega
  refine ⟨front.length, hlength, ?_, h, ?_, fun hend => ?_⟩
  · rw [htext, List.take_left, hlocation]
  · rw [htext, List.drop_left]
    exact List.prefix_append _ _
  · obtain ⟨location, rfl⟩ := exists_eq_endOfInput h hend
    have hrest := congrArg Cursor.rest (Cursor.reading_of_endOfInput (Nat.le_refl k) h).2
    rw [htext, hrest]
    simp [Token.terminal, Token.endOfInput, Terminal.lexeme]

/-- A diagnostic at a token is pinpointed if it is about the token wherever that stands. -/
theorem pinpoints_of_token (h : reading source k = .ok token)
    (hlocation : diagnostic.location = token.location)
    (hconcerns : ∀ p, TokenAt source p k token → Concerns source p diagnostic) :
    Pinpoints source diagnostic := by
  obtain ⟨p, hp, hplace, htoken⟩ := exists_tokenAt h
  exact ⟨p, hp, hlocation.trans hplace, hconcerns p htoken⟩

/-- A diagnostic is pinpointed behind what it is counted from, if it is about what comes next. -/
theorem pinpoints_of_append {front rest : List Char} (htext : source.toList = front ++ rest)
    (hlocation : diagnostic.location = .counted front)
    (hconcerns : Concerns source front.length diagnostic) : Pinpoints source diagnostic := by
  refine ⟨front.length, ?_, ?_, hconcerns⟩
  · rw [htext]
    exact (List.sublist_append_left _ _).length_le
  · rw [htext, List.take_left, hlocation]

/-- Every reading that is a fault is pinpointed. -/
theorem pinpoints_of_fault (h : reading source k = .error diagnostic) :
    Pinpoints source diagnostic := by
  obtain ⟨front, taken, rest, fault, htext, hmalformed, rfl⟩ := exists_front_of_fault h
  by_cases hillegal : ∃ c, fault = .illegalInText c
  · -- The place is that of the character, behind the part of the text in front of it.
    obtain ⟨c, rfl⟩ := hillegal
    obtain ⟨behind, rfl⟩ : ∃ behind, rest = c :: behind := by
      cases hmalformed
      exact ⟨_, rfl⟩
    rw [← List.append_assoc] at htext
    have hfront : source.toList.take (front ++ taken).length = front ++ taken := by
      rw [htext, List.take_left]
    refine pinpoints_of_append htext rfl (.illegal h hfront ?_ hmalformed)
    rw [htext, List.drop_left]
  · have hnot : ∀ c, fault ≠ .illegalInText c := fun c hc => hillegal ⟨c, hc⟩
    refine pinpoints_of_append htext ?_ (.malformed h ?_ hmalformed hnot)
    · cases hmalformed <;> first | rfl | exact absurd rfl (hnot _)
    · rw [htext, List.drop_left]

end

/-! ## Names behind reserved words -/

namespace Session

variable {session after : Session} {goals goals' : List Goal} {passed : List Token}

/-- A move declares no label a second time. -/
theorem Step.nodup_labels (h : Step session goals passed after goals')
    (hnodup : session.scope.labels.Nodup) : after.scope.labels.Nodup := by
  cases h with
  | expand => exact hnodup
  | perform done =>
    cases performed_of_perform done with
    | write | known => exact hnodup
    | @fresh name _ =>
      rw [(session.scope.declare_frame name).2]
      exact hnodup
    | mark _ hnew =>
      have hconcat := List.Nodup.concat hnew hnodup
      rwa [List.concat_eq_append] at hconcat
    | jump =>
      rw [Scope.labels_jump]
      exact hnodup
  | consume _ done =>
    rw [scope_of_shift done]
    exact hnodup

/-- A run declares no label a second time. -/
theorem Moves.nodup_labels (h : Moves session goals passed after goals')
    (hnodup : session.scope.labels.Nodup) : after.scope.labels.Nodup := by
  induction h with
  | refl => exact hnodup
  | step _ hstep ih => exact hstep.nodup_labels ih

end Session

/-- The names behind a reserved word are tokens, in their order. -/
theorem sites_sublist (word : Keyword) (tokens : List Token) :
    (sites word tokens).Sublist tokens :=
  (sites_sublist_tail word tokens).trans (List.tail_sublist tokens)

namespace Reached

open Session

variable {source : String} {passed : List Token} {session : Session} {goals : List Goal}
  {token : Token} {word : Keyword}

/-- A name behind a reserved word that was passed over is one of the readings. -/
theorem exists_namedBehind (h : Reached source passed session goals)
    (hmem : token ∈ sites word passed) :
    ∃ j < passed.length, reading source j = .ok token ∧ NamedBehind word source j token.text := by
  obtain ⟨i, first, hfirst, hword, htoken, hname⟩ := exists_index_of_mem_sites hmem
  obtain ⟨hpassed, -⟩ := h.reading_eq
  have hreading := hpassed _ token htoken
  exact ⟨i + 1, (List.getElem?_eq_some_iff.mp htoken).1, hreading,
    i, first, token, rfl, hpassed i first hfirst, hword, hreading, hname, rfl⟩

/-- A reading that is a name behind a reserved word was passed over as one. -/
theorem exists_mem_sites (h : Reached source passed session goals) {j : Nat} {name : String}
    (hj : j < passed.length) (hnamed : NamedBehind word source j name) :
    ∃ token ∈ sites word passed, reading source j = .ok token ∧ token.text = name := by
  obtain ⟨i, first, second, rfl, hfirst, hword, hsecond, hname, htext⟩ := hnamed
  obtain ⟨hpassed, -⟩ := h.reading_eq
  have hi : i < passed.length := by omega
  have hfirst' := List.getElem?_eq_getElem hi
  have hsecond' := List.getElem?_eq_getElem hj
  cases (hpassed i _ hfirst').symm.trans hfirst
  cases (hpassed _ _ hsecond').symm.trans hsecond
  exact ⟨_, mem_sites_of_index hfirst' hword hsecond' hname, hsecond, htext⟩

/-- Of two tokens that were passed over, the one read first stands in front. -/
theorem pairwise_location (h : Reached source passed session goals) :
    passed.Pairwise fun a b => a.location < b.location := by
  obtain ⟨hpassed, -⟩ := h.reading_eq
  refine List.pairwise_iff_getElem.mpr fun i j hi hj hij => ?_
  exact Cursor.location_lt_of_reading hij (hpassed i _ (List.getElem?_eq_getElem hi))
    (hpassed j _ (List.getElem?_eq_getElem hj)) (h.ne_endOfInput _ (List.getElem_mem hi))

/-- One token is one reading, if it was passed over. -/
theorem index_unique (h : Reached source passed session goals) {i j : Nat}
    (hmem : token ∈ passed) (hi : reading source i = .ok token)
    (hj : reading source j = .ok token) : i = j := by
  have hkind := h.ne_endOfInput token hmem
  rcases Nat.lt_trichotomy i j with hlt | heq | hlt
  · exact absurd (Cursor.location_lt_of_reading hlt hi hj hkind) (Location.lt_irrefl _)
  · exact heq
  · exact absurd (Cursor.location_lt_of_reading hlt hj hi hkind) (Location.lt_irrefl _)

end Reached

/-! ## Where a run ends -/

/-- Tokens whose terminals begin a source are read from it, places aside. -/
theorem exists_reading_of_begins {source : String} {tokens front : List Token}
    (hreads : (Cursor.ofSource source).Reads tokens)
    (hbegins : front.map Token.terminal <+: tokens.map Token.terminal) {i : Nat} {token : Token}
    (h : front[i]? = some token) :
    ∃ token', reading source i = .ok token' ∧ token'.terminal = token.terminal := by
  obtain ⟨hi, rfl⟩ := List.getElem?_eq_some_iff.mp h
  have hterminal := List.prefix_iff_getElem?.mp hbegins i (by simpa using hi)
  rw [List.getElem?_map, List.getElem_map] at hterminal
  obtain ⟨token', htoken', hsame⟩ := Option.map_eq_some_iff.mp hterminal
  exact ⟨token', hreads.reading_eq htoken', hsame⟩

namespace Reached

open Session

variable {source : String} {passed : List Token} {session after : Session} {goal : Goal}
  {goals rest : List Goal} {action : Action} {diagnostic : Diagnostic}

/-- Where an operand is expected, a number can stand. -/
theorem operandAt (h : Reached source passed session (.operand :: rest)) :
    OperandAt source passed.length := by
  obtain ⟨first, hscope, hfirst, -, hmoves⟩ := h.exists_moves
  obtain ⟨_, hready, hpassed, -⟩ := h.exists_reading
  let zero : Token := ⟨.number, "0", session.current.location⟩
  have hwell : zero.terminal.WellFormed :=
    (Goal.possible_zero session.scope.names "").wellFormed _ List.mem_cons_self
  have hplanned : Planned session.scope zero session.next .operand (.consume "0" []) :=
    .number rfl
  obtain ⟨top, behind, rfl⟩ : ∃ top behind, rest = top :: behind :=
    List.exists_cons_of_ne_nil (hplanned.append_ne_nil_of_consume hready.orderly)
  have hrest : Goal.Viable ([] ++ top :: behind) session.scope.names [] :=
    hready.orderly.tail.viable hready.jumps fun word location hmark =>
      hready.orderly.marks word location (hmark ▸ List.mem_cons_self)
  have hviable := hmoves.viable hfirst
    (hplanned.viable_of_consume hwell Kind.noConfusion trivial hrest)
  rw [hscope] at hviable
  obtain ⟨other, code, tokens, hcompile, hreads, hbegins⟩ := exists_source_of_viable hviable
  have hbegins' : (passed ++ [zero]).map Token.terminal <+: tokens.map Token.terminal := by
    rwa [List.map_append]
  obtain ⟨number, hnumber, hkind⟩ :=
    exists_reading_of_begins hreads hbegins' List.getElem?_concat_length
  refine ⟨other, code, number, hcompile, fun i hi i' hi' => ?_, hnumber,
    congrArg Terminal.kind hkind⟩
  have hlt : i' < passed.length := Nat.lt_of_le_of_lt hi' hi
  have hown := List.getElem?_eq_getElem hlt
  obtain ⟨second, hsecond, hsame⟩ :=
    exists_reading_of_begins hreads hbegins' ((List.getElem?_append_left hlt).trans hown)
  exact ⟨_, second, hpassed i' _ hown, hsecond, hsame⟩

/-- A token that is turned away is pinpointed. -/
theorem pinpoints_of_reject (h : Reached source passed session (goal :: rest))
    (hplan : goal.plan session.scope session.current session.next = .reject diagnostic) :
    Pinpoints source diagnostic := by
  have hplanned := Goal.planned_of_plan hplan
  refine pinpoints_of_token h.reading_eq.2.1 hplanned.location_of_reject fun p htoken => ?_
  cases hplanned with
  | noLine hkind | noKeyword hkind | noOperator hkind | unclosed hkind | noName hkind =>
    exact .unexpected htoken hkind
  | noStatement | noComparison | noOperand => exact .misplaced htoken (quotes_detail _ _)
  | unknown hkind => exact .undeclaredVariable htoken hkind h.operandAt

/-- A label that is declared already is pinpointed by the name of its second declaration. -/
theorem pinpoints_of_refuse (h : Reached source passed session (.act action :: rest))
    (hstopped : session.perform action = .stopped diagnostic after) :
    Pinpoints source diagnostic := by
  obtain ⟨word, location, rfl, hmem, rfl, -⟩ := eq_mark_of_perform hstopped
  obtain ⟨first, hstart, hmoves⟩ := h
  obtain ⟨hsees, -, -, hscope⟩ := sees_of_start hstart
  rcases hmoves.exists_label (ready_openProgram hsees hscope) with ⟨⟨⟩, _⟩ |
    ⟨before, last, others, rfl, hlast, hkind, rfl, rfl, hsame⟩
  have hreached : Reached source before last (.name .label :: others) := ⟨first, hstart, hlast⟩
  have hcurrent := hreached.reading_eq.2.1
  rcases hreached.phase.cases_of_cons with ⟨⟨⟩, _⟩ | ⟨_, ⟨⟩, hnoted, hword, _⟩ | ⟨_, ⟨⟩, _⟩ |
    ⟨_, ⟨⟩, _⟩
  have hlabels : last.scope.labels = (sites .LABEL before).map Token.text := hnoted.labels
  have hnodup : ((sites .LABEL before).map Token.text).Nodup := by
    rw [← hlabels]
    refine hlast.nodup_labels ?_
    rw [show first.openProgram.scope = .empty from hscope]
    exact List.nodup_nil
  rw [hsame, hlabels] at hmem
  obtain ⟨earlier, hearlier, htext⟩ := List.mem_map.mp hmem
  obtain ⟨j, hj, hreading, hnamed⟩ := hreached.exists_namedBehind hearlier
  refine pinpoints_of_token hcurrent rfl fun p htoken => .duplicateLabel htoken
    (hreached.declaresLabel_iff.mpr ⟨hword, hkind, rfl⟩) ⟨j, ⟨hj, htext ▸ hnamed⟩, ?_⟩
  -- A third declaration would be of the same token, since the labels so far are different.
  rintro j' ⟨hj', hnamed'⟩
  obtain ⟨other, hother, hreading', htext'⟩ := hreached.exists_mem_sites hj' hnamed'
  obtain rfl := List.inj_on_of_nodup_map hnodup hother hearlier (htext'.trans htext.symm)
  exact hreached.index_unique ((sites_sublist _ _).subset hother) hreading' hreading

/-- The first of the jumps without a label is pinpointed by the name behind its GOTO. -/
theorem pinpoints_of_unresolved (h : Reached source passed session [])
    (hunresolved : session.scope.unresolved? = some diagnostic) : Pinpoints source diagnostic := by
  have hordered := h.pairwise_location
  rw [show session.scope.unresolved? = _ from
    h.phase.noted_of_nil.unresolved?_eq hordered (List.Perm.refl _)] at hunresolved
  obtain ⟨token, hfound, rfl⟩ := Option.map_eq_some_iff.mp hunresolved
  have hmem : token ∈ sites .GOTO passed := List.mem_of_find?_eq_some hfound
  obtain ⟨k, hk, hreading, hnamed⟩ := h.exists_namedBehind hmem
  refine pinpoints_of_token hreading rfl fun p htoken => .undeclaredLabel htoken hnamed ?_
  intro j hj hnamed'
  obtain ⟨other, hother, hreading', htext⟩ := h.exists_mem_sites (Nat.lt_trans hj hk) hnamed'
  have hlt := Cursor.location_lt_of_reading hj hreading' hreading
    (h.ne_endOfInput other ((sites_sublist _ _).subset hother))
  -- The other jump has the same label, so it is not among the jumps in front of the one found.
  obtain ⟨hdangling, front, behind, hsites, hfront⟩ := List.find?_eq_some_iff_append.mp hfound
  have hplaces := hordered.sublist (sites_sublist .GOTO passed)
  rw [hsites] at hother hplaces
  rcases List.mem_append.mp hother with hother | hother
  · have hresolved := hfront other hother
    rw [htext, hdangling] at hresolved
    cases hresolved
  · rcases List.mem_cons.mp hother with rfl | hother
    · exact Location.lt_irrefl _ hlt
    · have hbehind := (List.pairwise_cons.mp (List.pairwise_append.mp hplaces).2.1).1 other hother
      exact Location.lt_irrefl _ (Location.lt_trans hlt hbehind)

end Reached

/-- A source that is not compiled has a fault, or its run is stopped, or a jump is left without its
label at the end of its run. -/
theorem exists_end_of_error {source : String} {diagnostic : Diagnostic}
    (h : compile source = .error diagnostic) :
    (∃ k, reading source k = .error diagnostic) ∨
      ∃ passed session goals, Reached source passed session goals ∧
        ((∃ after, Session.Ends session goals (.stopped diagnostic after)) ∨
          goals = [] ∧ session.scope.unresolved? = some diagnostic) := by
  cases hstart : Session.start (.ofSource source) .empty with
  | error fault =>
    rw [compile, hstart] at h
    cases h
    obtain ⟨k, -, hfault⟩ := firstFault_of_start hstart
    exact .inl ⟨k, hfault.fault⟩
  | ok first =>
    rw [compile_of_start hstart] at h
    obtain ⟨passed, session, goals, hmoves, hends⟩ :=
      Session.exists_moves first.openProgram [.blankLines, .statements .program]
    refine .inr ⟨passed, session, goals, ⟨first, hstart, hmoves⟩, ?_⟩
    cases hrun : first.openProgram.run [.blankLines, .statements .program] with
    | stopped stopped after =>
      rw [hrun] at h hends
      cases h
      exact .inl ⟨after, hends⟩
    | done after =>
      rw [hrun] at h hends
      cases hends
      dsimp only at h
      split at h
      · next unresolved hunresolved =>
        cases h
        exact .inr ⟨rfl, hunresolved⟩
      · cases h

/-- Where a source is not compiled, the error is placed behind some first characters of the source,
in the line and the column that counting gives, and what the error is about stands there: the token
it names, the operand that has no value, the second declaration of a label, the first jump to it, or
the character that is illegal or begins something malformed. -/
theorem error_concerns_its_place {source : String} {diagnostic : Diagnostic}
    (h : compile source = .error diagnostic) :
    ∃ p ≤ source.toList.length, diagnostic.location = .counted (source.toList.take p) ∧
      Concerns source p diagnostic := by
  rcases exists_end_of_error h with ⟨k, hfault⟩ |
    ⟨passed, session, goals, hreached, ⟨after, hends⟩ | ⟨rfl, hunresolved⟩⟩
  · exact pinpoints_of_fault hfault
  · cases hends with
    | reject plan => exact hreached.pinpoints_of_reject plan
    | refuse stopped => exact hreached.pinpoints_of_refuse stopped
    | fault plan stopped => exact pinpoints_of_fault (hreached.firstFault stopped).fault
  · exact hreached.pinpoints_of_unresolved hunresolved

/-- Behind a comment and a carriage return, the second declaration of a label is found in its line
and column. -/
theorem error_concerns_its_place_label_again :
    compile "LABEL a # LABEL a\r\n\n\tLABEL a\n\n" = .error (.duplicateLabel "a" ⟨3, 8⟩) ∧
      ∃ p ≤ "LABEL a # LABEL a\r\n\n\tLABEL a\n\n".toList.length,
        (⟨3, 8⟩ : Location) = .counted ("LABEL a # LABEL a\r\n\n\tLABEL a\n\n".toList.take p) ∧
        Concerns "LABEL a # LABEL a\r\n\n\tLABEL a\n\n" p (.duplicateLabel "a" ⟨3, 8⟩) := by
  have herror : compile "LABEL a # LABEL a\r\n\n\tLABEL a\n\n" =
      .error (.duplicateLabel "a" ⟨3, 8⟩) := by
    decide +kernel
  exact ⟨herror, error_concerns_its_place herror⟩

end BasicCompiler
