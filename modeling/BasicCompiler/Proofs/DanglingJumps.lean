import BasicCompiler.Proofs.FirstError
import BasicCompiler.Proofs.Lexing.Places

/-!
# Jumps without their label

A label may be declared behind a jump to it, so jumps are checked when everything else is done. Read
`reports_first_dangling_jump` first: of the jumps to labels that are declared nowhere, the one that
stands first in the source is reported, in whatever order the noted jumps are looked through. That
rests on the places: the scope keeps the first jump to each label, and of two jumps the one that is
read first has the smaller place.
-/

namespace BasicCompiler

/-! ## The earliest of some jumps -/

namespace Scope

/-- A jump that stands in front of all others is kept, wherever it comes in. -/
theorem foldl_earlier {jump first : String × Location} {jumps : List (String × Location)}
    (hmem : jump ∈ first :: jumps)
    (hfirst : ∀ other ∈ first :: jumps, other = jump ∨ jump.2 < other.2) :
    jumps.foldl earlier first = jump := by
  induction jumps generalizing first with
  | nil => exact (List.mem_singleton.mp hmem).symm
  | cons second jumps ih =>
    obtain ⟨hhead, htail⟩ := List.forall_mem_cons.mp hfirst
    obtain ⟨hsecond, hothers⟩ := List.forall_mem_cons.mp htail
    -- The earlier of the first two is one of them, and it is the jump if one of them is.
    have hkept : earlier first second = first ∨ earlier first second = second := by
      unfold earlier
      split
      · exact .inr rfl
      · exact .inl rfl
    have hjump : jump = first ∨ jump = second → earlier first second = jump := by
      rintro (rfl | rfl)
      · unfold earlier
        rcases hsecond with rfl | hlt
        · exact if_neg (Location.lt_irrefl _)
        · exact if_neg fun hgt => Location.lt_irrefl _ (Location.lt_trans hlt hgt)
      · unfold earlier
        rcases hhead with rfl | hlt
        · exact if_neg (Location.lt_irrefl _)
        · exact if_pos hlt
    refine ih ?_ (List.forall_mem_cons.mpr ⟨?_, hothers⟩)
    · rcases List.mem_cons.mp hmem with hsame | hmem
      · exact List.mem_cons.mpr (.inl (hjump (.inl hsame)).symm)
      · rcases List.mem_cons.mp hmem with hsame | hmem
        · exact List.mem_cons.mpr (.inl (hjump (.inr hsame)).symm)
        · exact List.mem_cons_of_mem _ hmem
    · rcases hkept with hsame | hsame
      · rw [hsame]
        exact hhead
      · rw [hsame]
        exact hsecond

/-- In whatever order jumps are looked through, the earliest one is the first of them in the order
of their places. -/
theorem earliest?_of_perm {jumps order : List (String × Location)} (hperm : order.Perm jumps)
    (hordered : jumps.Pairwise fun a b => a.2 < b.2) : earliest? order = jumps.head? := by
  cases jumps with
  | nil =>
    obtain rfl := hperm.eq_nil
    rfl
  | cons jump jumps =>
    obtain ⟨hlt, -⟩ := List.pairwise_cons.mp hordered
    cases order with
    | nil => cases hperm.nil_eq
    | cons first order =>
      refine congrArg some (foldl_earlier (hperm.mem_iff.mpr List.mem_cons_self) ?_)
      intro other hother
      rcases List.mem_cons.mp (hperm.mem_iff.mp hother) with hsame | hmem
      · exact .inl hsame
      · exact .inr (hlt other hmem)

/-- Which jump is reported does not depend on the order in which the jumps are looked through. -/
theorem unresolved?_of_perm {scope : Scope} {order : List (String × Location)}
    (hperm : order.Perm scope.jumps) (hordered : scope.jumps.Pairwise fun a b => a.2 < b.2) :
    unresolved? { scope with jumps := order } =
      (scope.jumps.find? fun jump => jump.1 ∉ scope.labels).map fun jump =>
        .undeclaredLabel jump.1 jump.2 := by
  have hdangling : earliest? (danglingJumps { scope with jumps := order }) =
      scope.danglingJumps.head? :=
    earliest?_of_perm (hperm.filter _) (hordered.filter _)
  rw [unresolved?, hdangling, danglingJumps, List.head?_filter]

/-! ## The jumps that are noted -/

/-- Of the jumps with a property of their label, the first one stays the first one. -/
theorem find?_jump (scope : Scope) (p : String → Bool) (word : String) (location : Location) :
    (scope.jump word location).jumps.find? (fun jump => p jump.1) =
      (scope.jumps.find? fun jump => p jump.1).or
        (if p word then some (word, location) else none) := by
  unfold jump
  split
  · next hmem =>
    cases hword : p word with
    | false => simp
    | true =>
      -- A jump to the label is noted, so a jump with the property has been found before.
      obtain ⟨jump, hjump, rfl⟩ := List.mem_map.mp hmem
      have hfound : (scope.jumps.find? fun jump => p jump.1).isSome = true :=
        List.find?_isSome.mpr ⟨jump, hjump, hword⟩
      rw [Option.or_of_isSome hfound]
  · rw [List.find?_append, List.find?_singleton]

/-- Of the jumps with a property of their label, the one with the first name is noted first. -/
theorem find?_jumpAll (scope : Scope) (p : String → Bool) (names : List Token) :
    (scope.jumpAll names).jumps.find? (fun jump => p jump.1) =
      (scope.jumps.find? fun jump => p jump.1).or
        ((names.find? fun token => p token.text).map fun token =>
          (token.text, token.location)) := by
  induction names generalizing scope with
  | nil => simp [jumpAll]
  | cons token names ih =>
    show ((scope.jump token.text token.location).jumpAll names).jumps.find? _ = _
    rw [ih, find?_jump, List.find?_cons, Option.or_assoc]
    cases p token.text <;> simp

/-- Only the names are noted, with their places and in their order. -/
theorem jumps_jumpAll_sublist (scope : Scope) (names : List Token) :
    (scope.jumpAll names).jumps.Sublist
      (scope.jumps ++ names.map fun token => (token.text, token.location)) := by
  induction names generalizing scope with
  | nil => exact List.sublist_append_left _ _
  | cons token names ih =>
    refine (ih (scope.jump token.text token.location)).trans ?_
    unfold jump
    split
    · exact (List.sublist_cons_self _ _).append_left _
    · simp

end Scope

/-- The names behind a reserved word are some of the tokens behind the first one, in their order. -/
theorem sites_sublist_tail (k : Keyword) (tokens : List Token) :
    (sites k tokens).Sublist tokens.tail := by
  fun_induction sites k tokens with
  | case1 first second rest _ ih => exact ih.cons_cons second
  | case2 first second rest _ ih => exact ih.cons second
  | case3 => exact List.nil_sublist _

/-- The end of the input is no name behind a reserved word. -/
theorem sites_endOfInput (k : Keyword) (tokens : List Token) (location : Location) :
    sites k (tokens ++ [.endOfInput location]) = sites k tokens := by
  rw [sites_concat, if_neg, List.append_nil]
  rintro ⟨-, hkind⟩
  cases hkind

/-- The first jump to a label that is declared nowhere: the name behind its GOTO. -/
def firstDangling? (tokens : List Token) : Option Token :=
  (sites .GOTO tokens).find? fun token => token.text ∉ (sites .LABEL tokens).map Token.text

/-- The end of the input changes nothing about the jumps. -/
theorem firstDangling?_endOfInput (tokens : List Token) (location : Location) :
    firstDangling? (tokens ++ [.endOfInput location]) = firstDangling? tokens := by
  rw [firstDangling?, sites_endOfInput, sites_endOfInput, firstDangling?]

/-- The diagnostic for a jump to a label that is declared nowhere. -/
def danglingAt (token : Token) : Diagnostic :=
  .undeclaredLabel token.text token.location

/-- Where the scope accounts for the tokens of a source, the first of their jumps without a label
is reported, in whatever order the jumps are looked through. -/
theorem Noted.unresolved?_eq {tokens : List Token} {scope : Scope}
    (hnoted : Noted .empty tokens scope)
    (hordered : tokens.Pairwise fun a b => a.location < b.location)
    {order : List (String × Location)} (hperm : order.Perm scope.jumps) :
    Scope.unresolved? { scope with jumps := order } = (firstDangling? tokens).map danglingAt := by
  obtain ⟨hjumps, hlabels⟩ := hnoted
  have hlabels' : scope.labels = (sites .LABEL tokens).map Token.text := hlabels
  have hsites : (sites .GOTO tokens).Sublist tokens :=
    (sites_sublist_tail .GOTO tokens).trans (List.tail_sublist tokens)
  have hplaces : scope.jumps.Pairwise fun a b => a.2 < b.2 := by
    rw [hjumps]
    refine List.Pairwise.sublist (Scope.jumps_jumpAll_sublist .empty _) ?_
    exact List.pairwise_map.mpr (hordered.sublist hsites)
  rw [Scope.unresolved?_of_perm hperm hplaces, hlabels', hjumps,
    Scope.find?_jumpAll .empty fun name => name ∉ (sites .LABEL tokens).map Token.text]
  show ((firstDangling? tokens).map _).map _ = _
  rw [Option.map_map]
  rfl

/-! ## The end of a compilation -/

namespace Session

variable {session after : Session}

/-- The session with its jumps noted in another order. -/
def withJumps (session : Session) (order : List (String × Location)) : Session :=
  { session with scope := { session.scope with jumps := order } }

/-- Finishing a program reports what is wrong with its jumps, and nothing else. -/
theorem diagnostic?_finish (session : Session) :
    session.finish.diagnostic? = session.scope.unresolved? := by
  have hscope : session.closeProgram.scope = session.scope := rfl
  rw [finish, hscope]
  cases session.scope.unresolved? <;> rfl

/-- A run over a whole program accounts for all tokens that were in front of it. -/
theorem noted_of_run {tokens : List Token} (hsees : session.Sees (tokens.map .ok))
    (h : session.run [.blankLines, .statements .program] = .done after) :
    Noted session.scope tokens after.scope := by
  obtain ⟨passed, middle, goals, hmoves, hends⟩ :=
    exists_moves session [.blankLines, .statements .program]
  rw [h] at hends
  cases hends
  obtain ⟨rest, htokens, hrest⟩ := hmoves.sees hsees
  obtain rfl := hrest.eq_nil (run_done_at_end hsees orderly_program (by simp) h)
  rw [List.append_nil] at htokens
  obtain rfl : tokens = passed := (List.map_inj_right fun _ _ => Except.ok.inj).mp htokens
  exact (hmoves.phase (by simp [Goal.IsPlain])).noted_of_nil

end Session

/-- The program follows the rules for names, except that jumps may lack their labels: every
variable has a value before it is read, and no label is declared twice. -/
structure Program.LocallyScoped (program : Program) : Prop where
  reads_assigned : ∀ before name after,
    program.mentions = before ++ .read name :: after → .assigned name ∈ before
  labels_nodup : (labelNames program.mentions).Nodup

/-- A program that follows the rules for names, jumps aside, is compiled up to the last check, and
all of its tokens are accounted for there. -/
theorem Program.LocallyScoped.exists_run {program : Program} (hscoped : program.LocallyScoped)
    {source : String} {front : List Token}
    (hpending : (Stream.ofSource source).pending = front.map .ok)
    (hterminals : front.map Token.terminal ++ [.endOfInput] = program.terminals)
    (listing : Listing) :
    ∃ session after, Session.start (.ofSource source) listing = .ok session ∧
      session.openProgram.run [.blankLines, .statements .program] = .done after ∧
      Noted .empty front after.scope := by
  obtain ⟨session, hstart⟩ := Session.exists_start hpending listing
  obtain ⟨hsees, -, -, hscope⟩ := Session.sees_of_start hstart
  have hsees' : session.Sees (Stream.ofSource source).pending := hsees
  rw [hpending] at hsees'
  have hadmits := Names.admits_empty hscoped.reads_assigned hscoped.labels_nodup
  obtain ⟨after, hrun⟩ := Session.exists_run_of_program hsees' hscope hterminals hadmits
  have hopen : session.openProgram.Sees (front.map .ok) := hsees'.congr rfl rfl rfl
  have hnoted := Session.noted_of_run hopen hrun
  have hempty : session.openProgram.scope = .empty := hscope
  rw [hempty] at hnoted
  exact ⟨session, after, hstart, hrun, hnoted⟩

/-- Let a source be read without a fault, let its terminals be those of a program, and let the
program follow the rules for names, jumps aside. Then the statements are compiled to the end,
whatever the listing holds before. If some jump is to a label that is declared nowhere, the first
such jump of the source is reported, with its label and the place of the label's name, in whatever
order the jumps are looked through; if there is none, the program is compiled. -/
theorem reports_first_dangling_jump {source : String} {tokens : List Token} {program : Program}
    (hreads : (Cursor.ofSource source).Reads tokens)
    (hprogram : tokens.map Token.terminal = program.terminals) (hscoped : program.LocallyScoped) :
    (∀ listing, ∃ session after, Session.start (.ofSource source) listing = .ok session ∧
      session.openProgram.run [.blankLines, .statements .program] = .done after ∧
      session.compileProgram = after.finish ∧
      ∀ order, order.Perm after.scope.jumps →
        (after.withJumps order).finish.diagnostic? = (firstDangling? tokens).map danglingAt) ∧
    (∀ token, firstDangling? tokens = some token → compile source = .error (danglingAt token)) ∧
    (firstDangling? tokens = none → compile source = .ok program.text) := by
  have hplaces := hreads.pairwise_location
  obtain ⟨front, hpending, rfl⟩ := Cursor.reads_iff_pending.mp hreads
  rw [List.map_append] at hprogram
  have hordered := hplaces.sublist (List.sublist_append_left front _)
  rw [firstDangling?_endOfInput]
  refine ⟨fun listing => ?_, ?_⟩
  · obtain ⟨session, after, hstart, hrun, hnoted⟩ := hscoped.exists_run hpending hprogram listing
    refine ⟨session, after, hstart, hrun, ?_, fun order hperm => ?_⟩
    · rw [Session.compileProgram, hrun]
      rfl
    · rw [Session.diagnostic?_finish]
      exact hnoted.unresolved?_eq hordered hperm
  · obtain ⟨session, after, hstart, hrun, hnoted⟩ := hscoped.exists_run hpending hprogram .empty
    have hunresolved : after.scope.unresolved? = (firstDangling? front).map danglingAt :=
      hnoted.unresolved?_eq hordered (List.Perm.refl _)
    have hcompile := compile_of_start hstart
    rw [hrun] at hcompile
    dsimp only at hcompile
    rw [hunresolved] at hcompile
    refine ⟨fun token htoken => ?_, fun hnone => ?_⟩
    · rw [htoken] at hcompile
      exact hcompile
    · -- The run has found a tree of its own, which is the given one.
      obtain ⟨hsees, -, hlisting, hscope⟩ := Session.sees_of_start hstart
      obtain ⟨front', program', hahead, hterminals, -, -, htext⟩ :=
        Session.exists_program_of_run hsees hlisting hscope hrun
      obtain rfl : front = front' :=
        (List.map_inj_right fun _ _ => Except.ok.inj).mp (hpending.symm.trans hahead)
      obtain rfl : program' = program :=
        Program.terminals_injective (hterminals.symm.trans hprogram)
      rw [hnone] at hcompile
      rw [hcompile]
      exact congrArg Except.ok htext

/-- Of jumps to three labels, of which only the first one is declared, the one in the block is
reported: it stands in front of the other. -/
theorem reports_first_dangling_jump_in_block :
    ∃ tokens, (Cursor.ofSource "GOTO b\nIF 1 < 2 THEN\nGOTO z\nENDIF\nGOTO a\nLABEL b\n").Reads
        tokens ∧
      firstDangling? tokens = some ⟨.name, "z", ⟨3, 6⟩⟩ ∧
      compile "GOTO b\nIF 1 < 2 THEN\nGOTO z\nENDIF\nGOTO a\nLABEL b\n" =
        .error (.undeclaredLabel "z" ⟨3, 6⟩) ∧
      ∀ listing, ∃ session after, Session.start
          (.ofSource "GOTO b\nIF 1 < 2 THEN\nGOTO z\nENDIF\nGOTO a\nLABEL b\n") listing =
            .ok session ∧
        session.openProgram.run [.blankLines, .statements .program] = .done after ∧
        session.compileProgram = after.finish ∧
        ∀ order, order.Perm after.scope.jumps →
          (after.withJumps order).finish.diagnostic? = some (.undeclaredLabel "z" ⟨3, 6⟩) := by
  have hreads : (Cursor.ofSource
      "GOTO b\nIF 1 < 2 THEN\nGOTO z\nENDIF\nGOTO a\nLABEL b\n").Reads
        [⟨.keyword .GOTO, "GOTO", ⟨1, 1⟩⟩, ⟨.name, "b", ⟨1, 6⟩⟩, ⟨.lineEnd, "\n", ⟨1, 7⟩⟩,
          ⟨.keyword .IF, "IF", ⟨2, 1⟩⟩, ⟨.number, "1", ⟨2, 4⟩⟩, ⟨.operator .less, "<", ⟨2, 6⟩⟩,
          ⟨.number, "2", ⟨2, 8⟩⟩, ⟨.keyword .THEN, "THEN", ⟨2, 10⟩⟩, ⟨.lineEnd, "\n", ⟨2, 14⟩⟩,
          ⟨.keyword .GOTO, "GOTO", ⟨3, 1⟩⟩, ⟨.name, "z", ⟨3, 6⟩⟩, ⟨.lineEnd, "\n", ⟨3, 7⟩⟩,
          ⟨.keyword .ENDIF, "ENDIF", ⟨4, 1⟩⟩, ⟨.lineEnd, "\n", ⟨4, 6⟩⟩,
          ⟨.keyword .GOTO, "GOTO", ⟨5, 1⟩⟩, ⟨.name, "a", ⟨5, 6⟩⟩, ⟨.lineEnd, "\n", ⟨5, 7⟩⟩,
          ⟨.keyword .LABEL, "LABEL", ⟨6, 1⟩⟩, ⟨.name, "b", ⟨6, 7⟩⟩, ⟨.lineEnd, "\n", ⟨6, 8⟩⟩,
          ⟨.endOfInput, "", ⟨7, 1⟩⟩] := by
    iterate 20 refine .token rfl (by decide) ?_
    exact .finish rfl rfl
  have hscoped : Program.LocallyScoped ⟨0, [.jump "b" 0,
      .guarded .branch ⟨⟨⟨⟨none, .number "1"⟩, []⟩, []⟩,
        ⟨.less, rfl, ⟨⟨⟨none, .number "2"⟩, []⟩, []⟩⟩, []⟩ 0 [.jump "z" 0] 0,
      .jump "a" 0, .label "b" 0]⟩ := by
    refine ⟨fun before name after hsplit => ?_, by decide⟩
    have hmentions : [Mention.jump "b", .jump "z", .jump "a", .label "b"] =
        before ++ .read name :: after := hsplit
    have hread : Mention.read name ∈ before ++ .read name :: after :=
      List.mem_append_right _ List.mem_cons_self
    rw [← hmentions] at hread
    simp at hread
  obtain ⟨hsessions, hreported, -⟩ := reports_first_dangling_jump hreads rfl hscoped
  exact ⟨_, hreads, by decide, hreported ⟨.name, "z", ⟨3, 6⟩⟩ (by decide), hsessions⟩

end BasicCompiler
