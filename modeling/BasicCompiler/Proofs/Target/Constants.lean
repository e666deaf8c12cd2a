import BasicCompiler.Proofs.Generated.Parts
import BasicCompiler.Proofs.Lexing.Readings
import BasicCompiler.Proofs.Target.Evaluation
import BasicCompiler.Proofs.Target.LineTokens

/-!
# The constants of the C text

A number is written into the C text as it stands in the source, zeros in front of it included. Read
`number_constant_iff` first: C reads the number that the source says unless the number has no point
and begins with a zero that counts. Constants have no bounds here: the ranges of the integer types
of C, and the rounding of its floating ones, are left out.
-/

namespace BasicCompiler

/-! ## The same digits in two bases -/

/-- The last digit of a number. -/
theorem positional_concat (base : Nat) (front : List Char) (last : Char) :
    positional base (front ++ [last]) =
      positional base front * base + (last.toNat - '0'.toNat) := by
  rw [positional, List.foldl_append]
  rfl

/-- In a greater base the same digits denote no smaller number. -/
theorem positional_le_positional {base base' : Nat} (hbase : base ≤ base') (digits : List Char) :
    positional base digits ≤ positional base' digits := by
  -- The digits behind some others are read with the number of these in front of them.
  have hfrom : ∀ front front' : Nat, front ≤ front' →
      digits.foldl (fun n c => n * base + (c.toNat - '0'.toNat)) front ≤
        digits.foldl (fun n c => n * base' + (c.toNat - '0'.toNat)) front' := by
    induction digits with
    | nil => exact fun _ _ hfront => hfront
    | cons c digits ih =>
      intro front front' hfront
      exact ih _ _ (Nat.add_le_add_right (Nat.mul_le_mul hfront hbase) _)
  exact hfrom 0 0 (Nat.le_refl 0)

/-- A digit counts unless it is zero. -/
theorem digit_eq_zero_iff {c : Char} (h : c.isDigit = true) :
    c.toNat - '0'.toNat = 0 ↔ c = '0' := by
  obtain ⟨hlow, -⟩ := Char.isDigit_iff_toNat.mp h
  rw [Nat.sub_eq_zero_iff_le]
  constructor
  · exact fun hle => Char.toNat_inj.mp (Nat.le_antisymm hle hlow)
  · rintro rfl
    exact Nat.le_refl _

/-- Digits denote zero exactly if all of them are zeros. -/
theorem positional_eq_zero_iff {base : Nat} (hbase : 0 < base) {digits : List Char}
    (h : ∀ c ∈ digits, c.isDigit = true) :
    positional base digits = 0 ↔ ∀ c ∈ digits, c = '0' := by
  have hfrom : ∀ front : Nat, digits.foldl (fun n c => n * base + (c.toNat - '0'.toNat)) front = 0 ↔
      front = 0 ∧ ∀ c ∈ digits, c = '0' := by
    induction digits with
    | nil => simp
    | cons c digits ih =>
      obtain ⟨hc, hothers⟩ := List.forall_mem_cons.mp h
      intro front
      rw [List.foldl_cons, ih hothers, List.forall_mem_cons, Nat.add_eq_zero_iff,
        digit_eq_zero_iff hc, Nat.mul_eq_zero, and_assoc, or_iff_left (Nat.ne_of_gt hbase)]
  rw [positional, hfrom 0]
  exact and_iff_right rfl

/-- Digits denote the same number in base eight and in base ten exactly if there are only zeros in
front of the last one. -/
theorem positional_eight_eq_ten_iff {digits : List Char} (h : IsDigits digits) :
    positional 8 digits = positional 10 digits ↔ ∀ c ∈ digits.dropLast, c = '0' := by
  obtain ⟨front, last, rfl⟩ : ∃ front last, digits = front ++ [last] :=
    ⟨_, _, (List.dropLast_concat_getLast h.ne_nil).symm⟩
  have hfront : ∀ c ∈ front, c.isDigit = true := fun c hc =>
    h.isDigit c (List.mem_append_left _ hc)
  have hle : positional 8 front ≤ positional 10 front := positional_le_positional (by decide) front
  rw [positional_concat, positional_concat, List.dropLast_concat,
    ← positional_eq_zero_iff (by decide : 0 < 10) hfront]
  omega

namespace C

/-! ## What a constant means -/

/-- Digits behind a zero are a constant if base eight has all of them. -/
theorem constant?_of_isOctal {cs : List Char} (h : isOctal cs = true) :
    constant? cs = if cs.all (· < '8') then some (.integer (positional 8 cs)) else none := by
  simp only [isOctal, Bool.and_eq_true, beq_iff_eq] at h
  obtain ⟨⟨hzero, hdigits⟩, -⟩ := h
  rw [constant?, if_pos hdigits, if_pos hzero]

/-- A text that C reads in base eight is made of digits. -/
theorem isDigits_of_isOctal {cs : List Char} (h : isOctal cs = true) : IsDigits cs := by
  simp only [isOctal, Bool.and_eq_true, beq_iff_eq] at h
  obtain ⟨⟨hzero, hdigits⟩, -⟩ := h
  refine ⟨?_, List.all_eq_true.mp hdigits⟩
  rintro rfl
  cases hzero

/-- A numeral is a constant of C unless it is written in base eight and has a digit that this base
has not. -/
theorem isSome_constant?_iff {cs : List Char} (h : IsNumeral cs) :
    (constant? cs).isSome = true ↔ (isOctal cs = true → ∀ c ∈ cs, c < '8') := by
  cases hoctal : isOctal cs with
  | false =>
    obtain ⟨v, hv, -⟩ := exists_constant_of_isNumeral h hoctal
    simp [hv]
  | true =>
    have hall : cs.all (· < '8') = true ↔ ∀ c ∈ cs, c < '8' := by simp
    rw [constant?_of_isOctal hoctal, ← hall]
    cases cs.all (· < '8') <;> simp

example : constant? "08".toList = none := by decide

/-- C reads a numeral as the number that it denotes in base ten unless it is written in base eight
and a digit in front of the last one counts or base eight has not the last one. -/
theorem exists_constant_iff {cs : List Char} (h : IsNumeral cs) :
    (∃ v, constant? cs = some v ∧ v.toRat = decimal cs) ↔
      (isOctal cs = true → (∀ c ∈ cs, c < '8') ∧ ∀ c ∈ cs.dropLast, c = '0') := by
  cases hoctal : isOctal cs with
  | false => simp [exists_constant_of_isNumeral h hoctal]
  | true =>
    have hdigits := isDigits_of_isOctal hoctal
    have hall : cs.all (· < '8') = true ↔ ∀ c ∈ cs, c < '8' := by simp
    have hvalue : (Value.integer (positional 8 cs)).toRat = (positional 8 cs : Rat) :=
      Rat.intCast_natCast _
    rw [constant?_of_isOctal hoctal, decimal_whole hdigits.isDigit, ← hall,
      ← positional_eight_eq_ten_iff hdigits, ← Rat.natCast_inj, ← hvalue]
    cases cs.all (· < '8') <;> simp

end C

/-! ## The numbers of a source -/

/-- A number that is read is a numeral. -/
theorem isNumeral_of_reading {source : String} {i : Nat} {token : Token}
    (h : reading source i = .ok token) (hnumber : token.kind = .number) :
    IsNumeral token.text.toList := by
  have hmem := Cursor.mem_pending_of_reading h (by simp [hnumber])
  have hwell := (Stream.sound_ofCursor _ token hmem).1
  obtain ⟨kind, text, place⟩ := token
  obtain rfl : kind = .number := hnumber
  exact hwell

/-- A number that is read from a source that is compiled is one of the terminals. -/
theorem terminal_mem_of_reading {source code : String} (hcompile : compile source = .ok code)
    {i : Nat} {token : Token} (h : reading source i = .ok token) (hnumber : token.kind = .number) :
    token.terminal ∈ sourceTerminals source := by
  obtain ⟨terminals, -, hscan, -⟩ := compile_eq_ok_iff_scan.mp hcompile
  have hsource : scan (Cursor.ofSource source).rest = terminals.map .ok := hscan
  obtain ⟨tokens, hreads, hterminals⟩ := exists_reads_iff_scan.mpr hsource
  obtain ⟨front, hpending, rfl⟩ := Cursor.reads_iff_pending.mp hreads
  have hmem := Cursor.mem_pending_of_reading h (by simp [hnumber])
  rw [hpending] at hmem
  obtain ⟨other, hother, hsame⟩ := List.mem_map.mp hmem
  obtain rfl := Except.ok.inj hsame
  rw [sourceTerminals_of_scan hscan, ← hterminals]
  exact List.mem_map_of_mem (List.mem_append_left _ hother)

/-- The token of a number. -/
theorem C.Token.ofTerminal_number {t : Terminal} (h : t.kind = .number) :
    C.Token.ofTerminal t = .number t.text := by
  rw [ofTerminal, h]

/-- No line end is a number. -/
theorem kind_ne_number_of_mem_lineEnds {blank : Nat} {t : Terminal} (h : t ∈ lineEnds blank) :
    t.kind ≠ .number := by
  rw [List.eq_of_mem_replicate h]
  nofun

mutual

/-- A number of a statement is a token in one of its C lines. -/
theorem Statement.exists_tokenLine_of_number {statement : Statement} {t : Terminal}
    (h : t ∈ statement.terminals) (hnumber : t.kind = .number) :
    ∃ line ∈ statement.tokenLines, .number t.text ∈ line := by
  rw [← C.Token.ofTerminal_number hnumber]
  have hend : ∀ blank, t ∉ lineEnds blank := fun blank hmem =>
    kind_ne_number_of_mem_lineEnds hmem hnumber
  have hkeyword : ∀ k, t ≠ .keyword k := by
    rintro k rfl
    cases hnumber
  have hname : ∀ name, t ≠ .name name := by
    rintro name rfl
    cases hnumber
  cases statement with
  | printText text blank =>
    have htext : t ≠ .quoted text := by
      rintro rfl
      cases hnumber
    simp [terminals, hend, hkeyword, htext] at h
  | label name blank | jump name blank | input name blank =>
    simp [terminals, hend, hkeyword, hname] at h
  | printValue value blank =>
    have hmem : t ∈ value.terminals := by simpa [terminals, hend, hkeyword] using h
    exact ⟨_, List.mem_cons_self, by simp [List.mem_map_of_mem hmem]⟩
  | guarded guard condition opening body blank =>
    have hmem : t ∈ condition.terminals ∨ t ∈ listTerminals body := by
      simpa [terminals, hend, hkeyword] using h
    rcases hmem with hmem | hmem
    · exact ⟨_, List.mem_cons_self, by simp [List.mem_map_of_mem hmem]⟩
    · obtain ⟨line, hline, htoken⟩ := exists_listTokenLine_of_number hmem hnumber
      rw [C.Token.ofTerminal_number hnumber]
      exact ⟨line, List.mem_cons_of_mem _ (List.mem_append_left _ hline), htoken⟩
  | assignment name value blank =>
    have hoperator : t ≠ .operator .assign := by
      rintro rfl
      cases hnumber
    have hmem : t ∈ value.terminals := by
      simpa [terminals, hend, hkeyword, hname, hoperator] using h
    exact ⟨_, List.mem_cons_self, by simp [List.mem_map_of_mem hmem]⟩

/-- A number of statements is a token in one of their C lines. -/
theorem Statement.exists_listTokenLine_of_number {statements : List Statement} {t : Terminal}
    (h : t ∈ listTerminals statements) (hnumber : t.kind = .number) :
    ∃ line ∈ listTokenLines statements, .number t.text ∈ line := by
  cases statements with
  | nil => cases h
  | cons statement statements =>
    rcases List.mem_append.mp h with h | h
    · obtain ⟨line, hline, hmem⟩ := exists_tokenLine_of_number h hnumber
      exact ⟨line, List.mem_append_left _ hline, hmem⟩
    · obtain ⟨line, hline, hmem⟩ := exists_listTokenLine_of_number h hnumber
      exact ⟨line, List.mem_append_right _ hline, hmem⟩

end

/-- A number of a program is a token in one of the C lines of its statements. -/
theorem Program.exists_tokenLine_of_number {program : Program} {t : Terminal}
    (h : t ∈ program.terminals) (hnumber : t.kind = .number) :
    ∃ line ∈ Statement.listTokenLines program.statements, .number t.text ∈ line := by
  refine Statement.exists_listTokenLine_of_number ?_ hnumber
  rcases List.mem_append.mp h with h | h
  · rcases List.mem_append.mp h with h | h
    · rw [List.eq_of_mem_replicate h] at hnumber
      cases hnumber
    · exact h
  · rw [List.mem_singleton.mp h] at hnumber
    cases hnumber

/-- A number that is read from a source is a constant of C unless it is written in base eight and
has a digit that this base has not. The constant is the number that the source says unless it is
written in base eight and more than its last digit counts. Whatever it means, the number stands in
the C text as it stands in the source. -/
theorem number_constant_iff {source : String} {i : Nat} {token : Token}
    (h : reading source i = .ok token) (hnumber : token.kind = .number) :
    ((C.constant? token.text.toList).isSome = true ↔
        (C.isOctal token.text.toList = true → ∀ c ∈ token.text.toList, c < '8')) ∧
      ((∃ v, C.constant? token.text.toList = some v ∧ v.toRat = decimal token.text.toList) ↔
        (C.isOctal token.text.toList = true → (∀ c ∈ token.text.toList, c < '8') ∧
          ∀ c ∈ token.text.toList.dropLast, c = '0')) ∧
      ∀ code, compile source = .ok code →
        ∃ line ∈ statementLines code, .number token.text ∈ C.tokens line.toList := by
  have hnumeral := isNumeral_of_reading h hnumber
  refine ⟨C.isSome_constant?_iff hnumeral, C.exists_constant_iff hnumeral, fun code hcompile => ?_⟩
  have hmem := terminal_mem_of_reading hcompile h hnumber
  obtain ⟨program, hprogram, hwell, -, rfl⟩ := exists_program_of_compile hcompile
  rw [hprogram] at hmem
  obtain ⟨tokens, htokens, hconstant⟩ := Program.exists_tokenLine_of_number hmem hnumber
  rw [← Statement.listLineTokens_lines _ (Program.wellFormed_statements hwell)] at htokens
  obtain ⟨line, hline, rfl⟩ := List.mem_map.mp htokens
  rw [Program.statementLines_text hwell]
  exact ⟨line, hline, hconstant⟩

/-- Zeros in front of a number with a point do not count, and neither do those in front of a single
digit: `007.50` and `07` are what they seem to be. -/
theorem number_constant_iff_padded :
    (∃ token, reading "PRINT 007.50 + 07\n" 1 = .ok token ∧ token.text = "007.50" ∧
      ∃ v, C.constant? token.text.toList = some v ∧ v.toRat = decimal token.text.toList) ∧
    ∃ token code, reading "PRINT 007.50 + 07\n" 3 = .ok token ∧ token.text = "07" ∧
      (∃ v, C.constant? token.text.toList = some v ∧ v.toRat = decimal token.text.toList) ∧
      compile "PRINT 007.50 + 07\n" = .ok code ∧
      ∃ line ∈ statementLines code, .number token.text ∈ C.tokens line.toList := by
  have hfirst : reading "PRINT 007.50 + 07\n" 1 = .ok ⟨.number, "007.50", ⟨1, 7⟩⟩ := rfl
  have hsecond : reading "PRINT 007.50 + 07\n" 3 = .ok ⟨.number, "07", ⟨1, 16⟩⟩ := rfl
  have hcompile : compile "PRINT 007.50 + 07\n" =
      .ok ("#include <stdio.h>\nint main(void)\x7b\n" ++
        "printf(\"%.2f\\n\", (float)(007.50 + 07));\nreturn 0;\n\x7d\n") := by
    decide +kernel
  obtain ⟨-, hvalue, -⟩ := number_constant_iff hfirst rfl
  obtain ⟨-, hvalue', hwritten⟩ := number_constant_iff hsecond rfl
  exact ⟨⟨_, hfirst, rfl, hvalue.mpr nofun⟩, _, _, hsecond, rfl,
    hvalue'.mpr fun _ => ⟨by simp, by simp⟩, hcompile, hwritten _ hcompile⟩

/-- A zero in front of several digits counts: what is ten in the source is eight in the C text. -/
theorem number_constant_octal :
    ∃ token code, reading "PRINT 010\n" 1 = .ok token ∧ token.kind = .number ∧
      compile "PRINT 010\n" = .ok code ∧
      statementLines code = ["printf(\"%.2f\\n\", (float)(010));"] ∧ token.text = "010" ∧
      C.constant? token.text.toList = some (.integer 8) ∧ decimal token.text.toList = 10 := by
  refine ⟨⟨.number, "010", ⟨1, 7⟩⟩, "#include <stdio.h>\nint main(void)\x7b\n" ++
    "printf(\"%.2f\\n\", (float)(010));\nreturn 0;\n\x7d\n", rfl, rfl, ?_⟩
  decide +kernel

end BasicCompiler
