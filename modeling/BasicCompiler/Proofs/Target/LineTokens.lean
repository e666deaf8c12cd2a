import BasicCompiler.Proofs.Target.Lexical

/-!
# The tokens of the C lines

What C finds in the lines of the statements. Read `Statement.listLineTokens_lines` first: the lines
of a statement hold its operands, signs and operators and a few fixed tokens around them, and no two
of these grow together. `C.Complete` says of the beginning of a line that it can be cut off.
-/

namespace BasicCompiler

namespace C

/-! ## Texts behind which every token is complete -/

/-- Whatever stands behind the text, no token of the text goes on there. -/
def Complete (front : List Char) : Prop :=
  ∀ rest, tokens (front ++ rest) = tokens front ++ tokens rest

/-- There are no tokens in an empty text. -/
theorem tokens_nil : tokens [] = [] := by
  rw [tokens]

/-- The empty text is complete. -/
theorem complete_nil : Complete [] := by
  intro rest
  rw [tokens_nil]
  rfl

/-- Two complete texts are a complete one. -/
theorem Complete.append {front front' : List Char} (h : Complete front) (h' : Complete front') :
    Complete (front ++ front') := by
  intro rest
  rw [List.append_assoc, h, h', h, List.append_assoc]

/-- A text is complete if its first piece always ends at the same place, and what is left of the
text there is complete. -/
theorem complete_of_piece {c : Char} {cs front : List Char} {token? : Option Token}
    (hpiece : ∀ rest, piece c (cs ++ rest) = ⟨token?, front ++ rest⟩) (hfront : Complete front) :
    Complete (c :: cs) := by
  intro rest
  have hself := hpiece []
  rw [List.append_nil, List.append_nil] at hself
  rw [List.cons_append, tokens_cons (hpiece rest), tokens_cons hself, hfront, List.append_assoc]

/-- The space, and punctuators with which no longer token begins. -/
def delimiters : List Char :=
  [' ', '(', ')', '\x7b', '\x7d', ',', ';']

/-- The character is a delimiter. -/
def isDelimiter (c : Char) : Bool :=
  delimiters.contains c

/-- A delimiter is complete. -/
theorem complete_delimiter {c : Char} (h : isDelimiter c = true) : Complete [c] := by
  have hmem : c ∈ delimiters := List.contains_iff_mem.mp h
  simp only [delimiters, List.mem_cons, List.not_mem_nil, or_false] at hmem
  rcases hmem with rfl | rfl | rfl | rfl | rfl | rfl | rfl <;>
    exact complete_of_piece (fun _ => rfl) complete_nil

/-- Names and numbers end in front of a delimiter. -/
theorem seam_delimiter {c : Char} (h : isDelimiter c = true) (rest : List Char) :
    Seam (c :: rest) := by
  have hmem : c ∈ delimiters := List.contains_iff_mem.mp h
  have hall : (delimiters.all fun c => !continuesName c && c != '.') = true := rfl
  have hc := List.all_eq_true.mp hall c hmem
  rw [Bool.and_eq_true, Bool.not_eq_true', bne_iff_ne] at hc
  exact seam_cons hc.1 hc.2 rest

/-- Delimiters in a row are complete. -/
theorem complete_delimiters {cs : List Char} (h : cs.all isDelimiter = true) : Complete cs := by
  induction cs with
  | nil => exact complete_nil
  | cons c cs ih =>
    obtain ⟨hfirst, hothers⟩ := Bool.and_eq_true_iff.mp (List.all_cons.symm.trans h)
    exact (complete_delimiter hfirst).append (ih hothers)

/-- What ends at a seam is complete together with a delimiter and a complete text behind it. -/
theorem Spells.complete {code : String} {terminals : List Terminal} (h : Spells code terminals)
    {c : Char} (hc : isDelimiter c = true) {cs : List Char} (hcs : Complete cs) :
    Complete (code.toList ++ c :: cs) := by
  intro rest
  have hbehind : Complete (c :: cs) := (complete_delimiter hc).append hcs
  rw [List.append_assoc, List.cons_append, h _ (seam_delimiter hc _),
    h _ (seam_delimiter hc _), ← List.cons_append, hbehind, List.append_assoc]

/-- A letter, and behind it letters and digits. -/
theorem isWord_of_all {first : Char} {more : List Char}
    (h : (first.isAlpha && more.all Char.isAlphanum) = true) : IsWord (first :: more) := by
  obtain ⟨hfirst, hmore⟩ := Bool.and_eq_true_iff.mp h
  exact .intro hfirst (List.all_eq_true.mp hmore)

/-- A word is one name. -/
theorem spells_word {word : String} (h : IsWord word.toList) : Spells word [.name word] :=
  fun _ hrest => tokens_name h hrest

/-- An operator is complete together with a space behind it. -/
theorem complete_operator (o : Operator) : Complete (o.spelling.toList ++ [' ']) := by
  intro rest
  rw [List.append_assoc, List.singleton_append, tokens_operator o rfl, tokens_operator o rfl,
    tokens_space, tokens_space, tokens_nil]
  rfl

/-- What stands behind a literal does not change where it ends. -/
theorem literalTail?_append {quote : Char} (hquote : quote ≠ '\\') {cs tail : List Char}
    (h : literalTail? quote cs = some tail) (rest : List Char) :
    literalTail? quote (cs ++ rest) = some tail := by
  fun_induction literalTail? quote cs generalizing tail with
  | case1 => cases h
  | case2 c cs ih =>
    obtain ⟨inner, hinner, rfl⟩ := Option.map_eq_some_iff.mp h
    simp [literalTail?, ih hinner]
  | case3 cs _ => simpa [literalTail?, hquote] using h
  | case4 => cases h
  | case5 c cs hpair hend hline ih =>
    obtain ⟨inner, hinner, rfl⟩ := Option.map_eq_some_iff.mp h
    -- A backslash that does not escape a character is the last one, and then there is no end.
    have hback : c ≠ '\\' := by
      rintro rfl
      cases cs with
      | nil => cases hinner
      | cons d cs => exact hpair d cs rfl rfl
    simp [literalTail?, hback, hend, hline, ih hinner]

/-- A string literal is one token, whatever stands behind it. -/
theorem piece_literal {cs : List Char} (h : literalTail? '"' cs = some cs) (rest : List Char) :
    piece '"' (cs ++ rest) = ⟨some (.literal (String.ofList ('"' :: cs))), rest⟩ := by
  have htail := literalTail?_append (by decide) h rest
  have hspace : isSpace '"' = false := rfl
  have hname : beginsName '"' = false := rfl
  simp [piece, hspace, hname, htail]

/-- A string literal is complete. -/
theorem complete_literal {cs : List Char} (h : literalTail? '"' cs = some cs) :
    Complete ('"' :: cs) :=
  complete_of_piece (piece_literal h) complete_nil

/-- The text of a program and what ends its line are one literal. -/
theorem literalTail?_text {cs : List Char} (h : ∀ c ∈ cs, Lexeme.isTextCharacter c = true) :
    literalTail? '"' (cs ++ "\\n\"".toList) = some (cs ++ "\\n\"".toList) := by
  induction cs with
  | nil => rfl
  | cons c cs ih =>
    obtain ⟨hfirst, hothers⟩ := List.forall_mem_cons.mp h
    have hback : c ≠ '\\' := ne_of_class hfirst rfl
    have hquote : c ≠ '"' := ne_of_class hfirst rfl
    have hline : c ≠ '\n' := ne_of_class hfirst rfl
    rw [List.cons_append, literalTail?, if_neg hquote, if_neg hline, ih hothers]
    · rfl
    · exact fun _ _ heq => absurd heq hback

/-- Between what is complete and a seam, the tokens of the code are those of the terminals. -/
theorem Spells.tokens_between {code : String} {terminals : List Terminal}
    (h : Spells code terminals) {before behind : String} (hbefore : Complete before.toList)
    (hbehind : Seam behind.toList) :
    tokens (before ++ code ++ behind).toList =
      tokens before.toList ++ terminals.map Token.ofTerminal ++ tokens behind.toList := by
  rw [String.toList_append, String.toList_append, List.append_assoc, hbefore, h _ hbehind,
    List.append_assoc]

end C

/-- The tokens of a condition are its terminals. -/
theorem Condition.spellsInC {condition : Condition}
    (h : ∀ t ∈ condition.terminals, t.WellFormed) :
    C.Spells condition.code condition.terminals := by
  have hfirst := Expression.spellsInC fun t ht => h t (List.mem_append_left _ ht)
  have hlinks := Link.spellsInC (fun _ => Expression.spellsInC) fun t ht =>
    h t (List.mem_append_right _ ht)
  exact hfirst.append_links hlinks

/-! ## The lines of the statements -/

namespace C

/-- The value that a line prints stands behind what is complete. -/
theorem complete_printValue : Complete "printf(\"%.2f\\n\", (float)(".toList := by
  have hname : Spells "printf" [.name "printf"] := spells_word (isWord_of_all rfl)
  have htype : Spells "float" [.name "float"] := spells_word (isWord_of_all rfl)
  have hformat : Complete ('"' :: "%.2f\\n\"".toList) := complete_literal rfl
  have hdelimiters : Complete ", (".toList := complete_delimiters rfl
  have hcast : Complete ("float".toList ++ ')' :: ['(']) :=
    htype.complete rfl (complete_delimiter rfl)
  have hcall : Complete ("printf".toList ++ '(' :: ('"' :: "%.2f\\n\"".toList ++
      (", (".toList ++ ("float".toList ++ ')' :: ['('])))) :=
    hname.complete rfl (hformat.append (hdelimiters.append hcast))
  exact hcall

/-- The condition of a line stands behind what is complete. -/
theorem complete_guard (guard : Guard) : Complete (guard.code ++ "(").toList := by
  have hname : Spells guard.code [.name guard.code] := by
    cases guard <;> exact spells_word (isWord_of_all rfl)
  rw [String.toList_append]
  exact hname.complete rfl complete_nil

/-- The value that a line assigns stands behind what is complete. -/
theorem complete_assignment {name : String} (h : IsWord name.toList) :
    Complete (name ++ " = ").toList := by
  rw [String.toList_append]
  exact (spells_word h).complete rfl (complete_operator .assign)

/-- The text of zero is one number. -/
theorem spells_zero : Spells "0" [.number "0"] :=
  fun _ hrest => tokens_number (.whole ⟨by decide, List.all_eq_true.mp rfl⟩) hrest

/-- The variable for which a line reads a value stands behind a complete text and a sign that does
not grow together with it. -/
theorem complete_input : Complete "if(0 == scanf(\"%f\", ".toList := by
  have hguard : Complete "if(".toList := complete_guard .branch
  have hname : Spells "scanf" [.name "scanf"] := spells_word (isWord_of_all rfl)
  have hformat : Complete ('"' :: "%f\"".toList) := complete_literal rfl
  have hdelimiters : Complete ", ".toList := complete_delimiters rfl
  have hcall : Complete ("scanf".toList ++ '(' :: ('"' :: "%f\"".toList ++ ", ".toList)) :=
    hname.complete rfl (hformat.append hdelimiters)
  have htest : Complete ("0".toList ++ ' ' :: ("== ".toList ++
      ("scanf".toList ++ '(' :: ('"' :: "%f\"".toList ++ ", ".toList)))) :=
    spells_zero.complete rfl ((complete_operator .equal).append hcall)
  exact hguard.append htest

/-- An address sign in front of a word is one punctuator. -/
theorem tokens_address {word : String} (h : IsWord word.toList) {rest : List Char}
    (hrest : Seam rest) :
    tokens ('&' :: (word.toList ++ rest)) =
      .punctuator "&" :: .name word :: tokens rest := by
  rw [← tokens_name h hrest]
  generalize word.toList = cs at h
  cases h with
  | @intro first more hfirst hmore =>
    have hplain : isPlain first = true := isPlain_of_isAlphanum (Text.isAlphanum_of_isAlpha hfirst)
    have hlongest : punctuator? (['&'] ++ first :: (more ++ rest)) = some "&" :=
      (punctuator?_append (not_mem_punctuator hplain) ['&'] (more ++ rest)).trans (by decide)
    exact tokens_cons (piece_punctuator rfl rfl hlongest)

/-- The tokens of each line. -/
def lineTokens (lines : List String) : List (List Token) :=
  lines.map fun line => tokens line.toList

end C

mutual

/-- The tokens that C finds in the lines of a statement. -/
def Statement.tokenLines : Statement → List (List C.Token)
  | .printText text _ =>
    [[.name "printf", .punctuator "(", .literal ("\"" ++ text ++ "\\n\""), .punctuator ")",
      .punctuator ";"]]
  | .printValue value _ =>
    [[.name "printf", .punctuator "(", .literal "\"%.2f\\n\"", .punctuator ",", .punctuator "(",
      .name "float", .punctuator ")", .punctuator "("] ++ value.terminals.map .ofTerminal ++
      [.punctuator ")", .punctuator ")", .punctuator ";"]]
  | .guarded guard condition _ body _ =>
    ([.name guard.code, .punctuator "("] ++ condition.terminals.map .ofTerminal ++
      [.punctuator ")", .punctuator "\x7b"]) ::
      (Statement.listTokenLines body ++ [[.punctuator "\x7d"]])
  | .label name _ => [[.name name, .punctuator ":"]]
  | .jump name _ => [[.name "goto", .name name, .punctuator ";"]]
  | .assignment name value _ =>
    [[.name name, .punctuator "="] ++ value.terminals.map .ofTerminal ++ [.punctuator ";"]]
  | .input name _ =>
    [[.name "if", .punctuator "(", .number "0", .punctuator "==", .name "scanf", .punctuator "(",
        .literal "\"%f\"", .punctuator ",", .punctuator "&", .name name, .punctuator ")",
        .punctuator ")", .punctuator "\x7b"],
      [.name name, .punctuator "=", .number "0", .punctuator ";"],
      [.name "scanf", .punctuator "(", .literal "\"%*s\"", .punctuator ")", .punctuator ";"],
      [.punctuator "\x7d"]]

/-- The tokens that C finds in the lines of statements in a row. -/
def Statement.listTokenLines : List Statement → List (List C.Token)
  | [] => []
  | statement :: statements => statement.tokenLines ++ Statement.listTokenLines statements

end

namespace C

/-- The token at the end of a line. -/
theorem tokens_semicolon : tokens ";".toList = [.punctuator ";"] := by
  decide +kernel

/-- The token of a line that closes a block. -/
theorem tokens_closing : tokens "\x7d".toList = [.punctuator "\x7d"] := by
  decide +kernel

/-- The tokens of a line that prints a text. -/
theorem tokens_printText {text : String}
    (h : ∀ c ∈ text.toList, Lexeme.isTextCharacter c = true) :
    tokens ("printf(\"" ++ text ++ "\\n\");").toList =
      [.name "printf", .punctuator "(", .literal ("\"" ++ text ++ "\\n\""), .punctuator ")",
        .punctuator ";"] := by
  have hname : Spells "printf" [.name "printf"] := spells_word (isWord_of_all rfl)
  have hcall : Complete "printf(".toList := hname.complete rfl complete_nil
  have hline : ("printf(\"" ++ text ++ "\\n\");").toList =
      "printf(".toList ++ '"' :: (text.toList ++ "\\n\"".toList ++ ");".toList) := by
    simp [String.toList_append]
  have hliteral : String.ofList ('"' :: (text.toList ++ "\\n\"".toList)) =
      "\"" ++ text ++ "\\n\"" := by
    apply String.toList_injective
    simp [String.toList_append]
  have hfront : tokens "printf(".toList = [.name "printf", .punctuator "("] := by decide +kernel
  have hback : tokens ");".toList = [.punctuator ")", .punctuator ";"] := by decide +kernel
  rw [hline, hcall, tokens_cons (piece_literal (literalTail?_text h) _), hliteral, hfront, hback]
  rfl

/-- The tokens of a line that prints a value. -/
theorem Spells.tokens_printValue {code : String} {terminals : List Terminal}
    (h : Spells code terminals) :
    tokens ("printf(\"%.2f\\n\", (float)(" ++ code ++ "));").toList =
      [.name "printf", .punctuator "(", .literal "\"%.2f\\n\"", .punctuator ",", .punctuator "(",
        .name "float", .punctuator ")", .punctuator "("] ++ terminals.map .ofTerminal ++
        [.punctuator ")", .punctuator ")", .punctuator ";"] := by
  have hseam : Seam "));".toList := seam_delimiter rfl _
  rw [h.tokens_between complete_printValue hseam]
  congr 2 <;> decide +kernel

/-- The tokens of a line with a condition. -/
theorem Spells.tokens_guard {code : String} {terminals : List Terminal}
    (h : Spells code terminals) (guard : Guard) :
    tokens (guard.code ++ "(" ++ code ++ ")\x7b").toList =
      [.name guard.code, .punctuator "("] ++ terminals.map .ofTerminal ++
        [.punctuator ")", .punctuator "\x7b"] := by
  have hseam : Seam ")\x7b".toList := seam_delimiter rfl _
  rw [h.tokens_between (complete_guard guard) hseam]
  congr 2
  · cases guard <;> decide +kernel
  · decide +kernel

/-- The tokens of a line that assigns a value. -/
theorem Spells.tokens_assignment {code : String} {terminals : List Terminal}
    (h : Spells code terminals) {name : String} (hname : IsWord name.toList) :
    tokens (name ++ " = " ++ code ++ ";").toList =
      [.name name, .punctuator "="] ++ terminals.map .ofTerminal ++ [.punctuator ";"] := by
  have hseam : Seam ";".toList := seam_delimiter rfl _
  have hfront : tokens (name ++ " = ").toList = [.name name, .punctuator "="] := by
    have hspace : Seam " = ".toList := seam_delimiter rfl _
    rw [String.toList_append, tokens_name hname hspace]
    congr 1
    decide +kernel
  rw [h.tokens_between (complete_assignment hname) hseam, hfront, tokens_semicolon]

/-- The tokens of the line that begins to read a value. -/
theorem tokens_input {name : String} (h : IsWord name.toList) :
    tokens ("if(0 == scanf(\"%f\", &" ++ name ++ ")) \x7b").toList =
      [.name "if", .punctuator "(", .number "0", .punctuator "==", .name "scanf", .punctuator "(",
        .literal "\"%f\"", .punctuator ",", .punctuator "&", .name name, .punctuator ")",
        .punctuator ")", .punctuator "\x7b"] := by
  have hseam : Seam ")) \x7b".toList := seam_delimiter rfl _
  have hline : ("if(0 == scanf(\"%f\", &" ++ name ++ ")) \x7b").toList =
      "if(0 == scanf(\"%f\", ".toList ++ '&' :: (name.toList ++ ")) \x7b".toList) := by
    simp [String.toList_append]
  have hfront : tokens "if(0 == scanf(\"%f\", ".toList =
      [.name "if", .punctuator "(", .number "0", .punctuator "==", .name "scanf", .punctuator "(",
        .literal "\"%f\"", .punctuator ","] := by
    decide +kernel
  have hback : tokens ")) \x7b".toList =
      [.punctuator ")", .punctuator ")", .punctuator "\x7b"] := by
    decide +kernel
  rw [hline, complete_input, tokens_address h hseam, hfront, hback]
  rfl

/-- The tokens of a line that is a label. -/
theorem tokens_label {name : String} (h : IsWord name.toList) :
    tokens (name ++ ":").toList = [.name name, .punctuator ":"] := by
  have hseam : Seam ":".toList := seam_cons rfl (by decide) _
  rw [String.toList_append, tokens_name h hseam]
  congr 1
  decide +kernel

/-- The tokens of a line that is a jump or a declaration. -/
theorem tokens_words {first second : String} (hfirst : IsWord first.toList)
    (hsecond : IsWord second.toList) :
    tokens (first ++ " " ++ second ++ ";").toList =
      [.name first, .name second, .punctuator ";"] := by
  have hspace : Seam " ".toList := seam_delimiter rfl _
  have hseam : Seam ";".toList := seam_delimiter rfl _
  have hfront : Complete (first ++ " ").toList := by
    rw [String.toList_append]
    exact (spells_word hfirst).complete rfl complete_nil
  have hname : tokens (first ++ " ").toList = [.name first] := by
    rw [String.toList_append, tokens_name hfirst hspace]
    congr 1
    decide +kernel
  rw [(spells_word hsecond).tokens_between hfront hseam, hname, tokens_semicolon]
  rfl

end C

mutual

/-- C finds in the lines of a statement the operands and operators of the statement, each of them
once, and the same few tokens around them. -/
theorem Statement.lineTokens_lines (statement : Statement)
    (h : ∀ t ∈ statement.terminals, t.WellFormed) :
    C.lineTokens statement.lines = statement.tokenLines := by
  cases statement with
  | printText text blank =>
    have htext : ∀ c ∈ text.toList, Lexeme.isTextCharacter c = true :=
      h (.quoted text) (by simp [terminals])
    exact congrArg (List.cons · []) (C.tokens_printText htext)
  | printValue value blank =>
    have hvalue : C.Spells value.code value.terminals := Expression.spellsInC fun t ht =>
      h t (by simp [terminals, ht])
    exact congrArg (List.cons · []) hvalue.tokens_printValue
  | guarded guard condition opening body blank =>
    have hcondition : C.Spells condition.code condition.terminals := Condition.spellsInC
      fun t ht => h t (by simp [terminals, ht])
    have hbody := listLineTokens_lines body fun t ht => h t (by simp [terminals, ht])
    rw [lines, tokenLines, ← hbody, ← C.tokens_closing, ← hcondition.tokens_guard]
    simp [C.lineTokens]
  | label name blank =>
    have hname : IsWord name.toList := (h (.name name) (by simp [terminals])).1
    exact congrArg (List.cons · []) (C.tokens_label hname)
  | jump name blank =>
    have hname : IsWord name.toList := (h (.name name) (by simp [terminals])).1
    have hword : IsWord "goto".toList := C.isWord_of_all rfl
    have hfront : "goto " = "goto" ++ " " := by decide
    rw [lines, tokenLines, hfront, ← C.tokens_words hword hname]
    rfl
  | assignment name value blank =>
    have hname : IsWord name.toList := (h (.name name) (by simp [terminals])).1
    have hvalue : C.Spells value.code value.terminals := Expression.spellsInC fun t ht =>
      h t (by simp [terminals, ht])
    exact congrArg (List.cons · []) (hvalue.tokens_assignment hname)
  | input name blank =>
    have hname : IsWord name.toList := (h (.name name) (by simp [terminals])).1
    have hzero := C.spells_zero.tokens_assignment hname
    have hskip : C.tokens "scanf(\"%*s\");".toList = [.name "scanf", .punctuator "(",
        .literal "\"%*s\"", .punctuator ")", .punctuator ";"] := by
      decide +kernel
    have hline : name ++ " = 0;" = name ++ " = " ++ "0" ++ ";" := by
      simp [String.append_assoc]
    rw [lines, tokenLines, ← C.tokens_input hname, ← hskip, ← C.tokens_closing, hline]
    exact congrArg (fun second => [_, second, _, _]) hzero

/-- C finds in the lines of statements the operands and operators of the statements. -/
theorem Statement.listLineTokens_lines (statements : List Statement)
    (h : ∀ t ∈ listTerminals statements, t.WellFormed) :
    C.lineTokens (listLines statements) = listTokenLines statements := by
  cases statements with
  | nil => rfl
  | cons statement statements =>
    have hfirst := lineTokens_lines statement fun t ht => h t (List.mem_append_left _ ht)
    have hothers := listLineTokens_lines statements fun t ht => h t (List.mem_append_right _ ht)
    rw [listLines, listTokenLines, ← hfirst, ← hothers]
    exact List.map_append

end

end BasicCompiler
