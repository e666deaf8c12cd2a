import BasicCompiler.Proofs.Generated.Parts

/-!
# Nesting

The braces of a C text are nested and the parentheses of each of its lines are, whatever the
quoted texts in it hold. A C text is read character by character; what stands between two quotes
does not count, and a backslash takes the character behind it along. Read `Balanced.insert` first:
balanced text may be put into balanced text at any place outside the quotes. Every statement is
put together in this way.
-/

namespace BasicCompiler

/-! ## Counting brackets -/

/-- Where a character of a C text stands: outside of quotes, between quotes, or between quotes
behind a backslash. -/
inductive Region where
  | code | literal | escape
deriving DecidableEq, Repr

namespace Region

/-- The region behind a character. -/
def next : Region → Char → Region
  | code, c => if c = '"' then literal else code
  | literal, c => if c = '"' then code else if c = '\\' then escape else literal
  | escape, _ => literal

/-- The region behind some characters. -/
def after (region : Region) (cs : List Char) : Region :=
  cs.foldl next region

/-- Two stretches of text are passed one after the other. -/
@[simp] theorem after_append (region : Region) (first second : List Char) :
    region.after (first ++ second) = (region.after first).after second :=
  List.foldl_append

end Region

/-- The two kinds of brackets that are counted. -/
inductive Bracket where
  | brace | parenthesis
deriving DecidableEq, Repr

namespace Bracket

/-- The character that opens the bracket. -/
def opening : Bracket → Char
  | brace => '{'
  | parenthesis => '('

/-- The character that closes the bracket. -/
def closing : Bracket → Char
  | brace => '}'
  | parenthesis => ')'

/-- What a character outside of quotes adds to the depth. -/
def change (bracket : Bracket) (c : Char) : Int :=
  if c = bracket.opening then 1 else if c = bracket.closing then -1 else 0

/-- How much deeper the end of a text is than its beginning, which stands in the region. -/
def depth (bracket : Bracket) : Region → List Char → Int
  | _, [] => 0
  | region, c :: cs =>
    (if region = .code then bracket.change c else 0) + bracket.depth (region.next c) cs

/-- The depths of two stretches of text add up. -/
theorem depth_append (bracket : Bracket) (region : Region) (first second : List Char) :
    bracket.depth region (first ++ second) =
      bracket.depth region first + bracket.depth (region.after first) second := by
  induction first generalizing region with
  | nil => exact (Int.zero_add _).symm
  | cons c first ih =>
    rw [List.cons_append, depth, depth, ih, Int.add_assoc]
    rfl

end Bracket

/-- A text that begins in the region ends there too, and at the same depth, and is nowhere less
deep. -/
structure Balanced (bracket : Bracket) (region : Region) (cs : List Char) : Prop where
  after_eq : region.after cs = region
  depth_eq : bracket.depth region cs = 0
  depth_nonneg : ∀ before, before <+: cs → 0 ≤ bracket.depth region before

/-- Whether a text is balanced can be seen at its places one by one. -/
instance (bracket : Bracket) (region : Region) (cs : List Char) :
    Decidable (Balanced bracket region cs) :=
  decidable_of_iff
    (region.after cs = region ∧ bracket.depth region cs = 0 ∧
      ∀ n, n < cs.length + 1 → 0 ≤ bracket.depth region (cs.take n))
    ⟨fun h => ⟨h.1, h.2.1, fun before hbefore => by
        rw [List.prefix_iff_eq_take.mp hbefore]
        exact h.2.2 _ (Nat.lt_succ_of_le hbefore.length_le)⟩,
      fun h => ⟨h.after_eq, h.depth_eq, fun n _ => h.depth_nonneg _ (List.take_prefix n cs)⟩⟩

/-- A place in two stretches of text lies in the first one, or in the second one behind the
first. -/
theorem prefix_append_cases {before first second : List Char} (h : before <+: first ++ second) :
    before <+: first ∨ ∃ more, before = first ++ more ∧ more <+: second := by
  rcases List.prefix_or_prefix_of_prefix h (List.prefix_append first second) with h' | h'
  · exact .inl h'
  · obtain ⟨more, rfl⟩ := h'
    exact .inr ⟨more, rfl, (List.prefix_append_right_inj first).mp h⟩

namespace Balanced

variable {bracket : Bracket} {region : Region}

/-- Balanced text inside balanced text, where it stands in the region for which it is
balanced. -/
theorem insert {left middle right : List Char} {inner : Region}
    (h : Balanced bracket region (left ++ right)) (hleft : region.after left = inner)
    (hmiddle : Balanced bracket inner middle) :
    Balanced bracket region (left ++ (middle ++ right)) := by
  subst hleft
  have hafter := h.after_eq
  have hdepth := h.depth_eq
  rw [Region.after_append] at hafter
  rw [Bracket.depth_append] at hdepth
  refine ⟨?_, ?_, fun before hbefore => ?_⟩
  · rw [Region.after_append, Region.after_append, hmiddle.after_eq, hafter]
  · rw [Bracket.depth_append, Bracket.depth_append, hmiddle.after_eq, hmiddle.depth_eq,
      Int.zero_add, hdepth]
  -- In each of the three stretches the depth is at least that at a place of the given texts.
  · rcases prefix_append_cases hbefore with hbefore | ⟨more, rfl, hmore⟩
    · exact h.depth_nonneg before (hbefore.trans (List.prefix_append _ _))
    · have hplace := h.depth_nonneg left (List.prefix_append _ _)
      rw [Bracket.depth_append]
      rcases prefix_append_cases hmore with hmore | ⟨last, rfl, hlast⟩
      · have hinner := hmiddle.depth_nonneg more hmore
        omega
      · have hbehind := h.depth_nonneg (left ++ last)
          ((List.prefix_append_right_inj left).mpr hlast)
        rw [Bracket.depth_append] at hbehind
        rw [Bracket.depth_append, hmiddle.after_eq, hmiddle.depth_eq]
        omega

/-- Balanced text behind balanced text. -/
theorem append {first second : List Char} (h : Balanced bracket region first)
    (h' : Balanced bracket region second) : Balanced bracket region (first ++ second) := by
  have hfirst : Balanced bracket region (first ++ []) := by
    rw [List.append_nil]
    exact h
  have hboth := hfirst.insert h.after_eq h'
  rw [List.append_nil] at hboth
  exact hboth

/-- Text is balanced if none of its characters changes the region or the depth. -/
theorem of_silent {cs : List Char}
    (h : ∀ c ∈ cs, region.next c = region ∧ (region = .code → bracket.change c = 0)) :
    Balanced bracket region cs := by
  induction cs with
  | nil =>
    refine ⟨rfl, rfl, fun before hbefore => ?_⟩
    rw [List.prefix_nil.mp hbefore]
    exact Int.le_refl 0
  | cons c cs ih =>
    obtain ⟨⟨hnext, hchange⟩, hothers⟩ := List.forall_mem_cons.mp h
    have hrest := ih hothers
    have hstep : ∀ more, bracket.depth region (c :: more) = bracket.depth region more := by
      intro more
      rw [Bracket.depth, hnext]
      split
      · next hcode => rw [hchange hcode, Int.zero_add]
      · exact Int.zero_add _
    refine ⟨?_, ?_, fun before hbefore => ?_⟩
    · show (region.next c).after cs = region
      rw [hnext, hrest.after_eq]
    · rw [hstep, hrest.depth_eq]
    · rcases List.prefix_cons_iff.mp hbefore with rfl | ⟨more, rfl, hmore⟩
      · exact Int.le_refl 0
      · rw [hstep]
        exact hrest.depth_nonneg more hmore

end Balanced

/-! ## Text that holds no brackets -/

/-- The characters that neither open nor close anything outside of quotes. -/
def isNeutral (c : Char) : Bool :=
  !(c == '"' || c == '(' || c == ')' || c == '{' || c == '}')

/-- Neutral text is balanced outside of quotes. -/
theorem balanced_of_neutral {bracket : Bracket} {cs : List Char}
    (h : cs.all isNeutral = true) : Balanced bracket .code cs := by
  refine Balanced.of_silent fun c hc => ?_
  have hneutral := List.all_eq_true.mp h c hc
  have hne : ∀ d, isNeutral d = false → c ≠ d := fun d hd => ne_of_class hneutral hd
  refine ⟨if_neg (hne '"' rfl), fun _ => ?_⟩
  rw [Bracket.change, if_neg (hne _ (by cases bracket <;> rfl)),
    if_neg (hne _ (by cases bracket <;> rfl))]

/-- What can stand in a quoted text is balanced between quotes, whatever it holds. -/
theorem balanced_of_isText {bracket : Bracket} {cs : List Char}
    (h : ∀ c ∈ cs, Lexeme.isTextCharacter c = true) : Balanced bracket .literal cs := by
  refine Balanced.of_silent fun c hc => ⟨?_, Region.noConfusion⟩
  have hquote : c ≠ '"' := ne_of_class (h c hc) rfl
  have hbackslash : c ≠ '\\' := ne_of_class (h c hc) rfl
  rw [Region.next, if_neg hquote, if_neg hbackslash]

/-! ## Expressions -/

/-- The characters that expressions and conditions are written with. -/
def isCodeCharacter (c : Char) : Bool :=
  c.isAlphanum || [' ', '.', '+', '-', '*', '/', '=', '!', '<', '>'].contains c

/-- A letter or a digit can stand in an expression. -/
theorem isCodeCharacter_of_isAlphanum {c : Char} (h : c.isAlphanum = true) :
    isCodeCharacter c = true := by
  rw [isCodeCharacter, h]
  rfl

/-- What stands in an expression is neutral. -/
theorem isNeutral_of_isCodeCharacter {c : Char} (h : isCodeCharacter c = true) :
    isNeutral c = true := by
  have hne : ∀ d, isCodeCharacter d = false → c ≠ d := fun d hd => ne_of_class h hd
  simp [isNeutral, hne '"' rfl, hne '(' rfl, hne ')' rfl, hne '{' rfl, hne '}' rfl]

/-- A word is written with characters of expressions. -/
theorem all_isCodeCharacter_of_isWord {cs : List Char} (h : IsWord cs) :
    cs.all isCodeCharacter = true :=
  List.all_eq_true.mpr fun c hc => isCodeCharacter_of_isAlphanum (isAlphanum_of_isWord h c hc)

/-- A number is written with characters of expressions. -/
theorem all_isCodeCharacter_of_isNumeral {cs : List Char} (h : IsNumeral cs) :
    cs.all isCodeCharacter = true := by
  have hdigits : ∀ {digits : List Char}, IsDigits digits → digits.all isCodeCharacter = true := by
    intro digits hdigits
    refine List.all_eq_true.mpr fun c hc => ?_
    exact isCodeCharacter_of_isAlphanum (Text.isAlphanum_of_isDigit (hdigits.isDigit c hc))
  cases h with
  | whole hwhole => exact hdigits hwhole
  | decimal hwhole hfraction =>
    have hpoint : isCodeCharacter '.' = true := rfl
    rw [List.all_append, List.all_cons, hdigits hwhole, hdigits hfraction, hpoint]
    rfl

/-- An operand is written with characters of expressions. -/
theorem Operand.all_isCodeCharacter {operand : Operand}
    (h : ∀ t ∈ operand.terminals, t.WellFormed) :
    operand.code.toList.all isCodeCharacter = true := by
  cases operand with
  | number digits => exact all_isCodeCharacter_of_isNumeral (h (.number digits) List.mem_cons_self)
  | name word => exact all_isCodeCharacter_of_isWord (h (.name word) List.mem_cons_self).1

/-- A factor is written with characters of expressions. -/
theorem Factor.all_isCodeCharacter {factor : Factor}
    (h : ∀ t ∈ factor.terminals, t.WellFormed) :
    factor.code.toList.all isCodeCharacter = true := by
  obtain ⟨sign, operand⟩ := factor
  have hoperand := operand.all_isCodeCharacter fun t ht => h t (List.mem_append_right _ ht)
  rw [Factor.code, String.toList_append, List.all_append, hoperand, Bool.and_true]
  cases sign with
  | none => rfl
  | some sign =>
    show sign.operator.spelling.toList.all isCodeCharacter = true
    cases sign.operator <;> decide

section Chains

variable {joins : Operator → Bool} {Part : Type} {code : Part → String}
  {terminals : Part → List Terminal}

/-- Links are written with characters of expressions if their parts are. -/
theorem Link.all_isCodeCharacter
    (hpart : ∀ part, (∀ t ∈ terminals part, t.WellFormed) →
      (code part).toList.all isCodeCharacter = true)
    {links : List (Link joins Part)} (h : ∀ t ∈ Link.terminals terminals links, t.WellFormed) :
    (Link.code code links).toList.all isCodeCharacter = true := by
  induction links with
  | nil => rfl
  | cons link links ih =>
    obtain ⟨hlink, hlinks⟩ := List.forall_mem_append.mp h
    have hfirst := hpart link.part fun t ht => hlink t (List.mem_cons_of_mem _ ht)
    have hothers := ih hlinks
    have hspace : isCodeCharacter ' ' = true := rfl
    have hoperator : link.operator.spelling.toList.all isCodeCharacter = true := by
      cases link.operator <;> decide
    have hcode : (Link.code code (link :: links)).toList =
        ' ' :: (link.operator.spelling.toList ++ ' ' ::
          ((code link.part).toList ++ (Link.code code links).toList)) := by
      simp [Link.code, String.toList_append]
    simp only [hcode, List.all_cons, List.all_append, hspace, hoperator, hfirst, hothers,
      Bool.and_self]

/-- A chain is written with characters of expressions if its parts are. -/
theorem Chain.all_isCodeCharacter
    (hpart : ∀ part, (∀ t ∈ terminals part, t.WellFormed) →
      (code part).toList.all isCodeCharacter = true)
    {chain : Chain joins Part} (h : ∀ t ∈ Chain.terminals terminals chain, t.WellFormed) :
    (Chain.code code chain).toList.all isCodeCharacter = true := by
  obtain ⟨hfirst, hlinks⟩ := List.forall_mem_append.mp h
  rw [Chain.code, String.toList_append, List.all_append, hpart _ hfirst,
    Link.all_isCodeCharacter hpart hlinks]
  rfl

end Chains

/-- A term is written with characters of expressions. -/
theorem Term.all_isCodeCharacter {term : Term} (h : ∀ t ∈ term.terminals, t.WellFormed) :
    term.code.toList.all isCodeCharacter = true :=
  Chain.all_isCodeCharacter (fun _ => Factor.all_isCodeCharacter) h

/-- An expression is written with characters of expressions. -/
theorem Expression.all_isCodeCharacter {expression : Expression}
    (h : ∀ t ∈ expression.terminals, t.WellFormed) :
    expression.code.toList.all isCodeCharacter = true :=
  Chain.all_isCodeCharacter (fun _ => Term.all_isCodeCharacter) h

/-- A condition is written with characters of expressions. -/
theorem Condition.all_isCodeCharacter {condition : Condition}
    (h : ∀ t ∈ condition.terminals, t.WellFormed) :
    condition.code.toList.all isCodeCharacter = true := by
  obtain ⟨hfirst, hlinks⟩ := List.forall_mem_append.mp h
  rw [Condition.code, String.toList_append, List.all_append,
    Expression.all_isCodeCharacter hfirst,
    Link.all_isCodeCharacter (fun _ => Expression.all_isCodeCharacter) hlinks]
  rfl

/-- What is written with characters of expressions is balanced. -/
theorem balanced_of_isCode {bracket : Bracket} {code : String}
    (h : code.toList.all isCodeCharacter = true) : Balanced bracket .code code.toList := by
  refine balanced_of_neutral (List.all_eq_true.mpr fun c hc => ?_)
  exact isNeutral_of_isCodeCharacter (List.all_eq_true.mp h c hc)

/-- A name is balanced. -/
theorem balanced_name {bracket : Bracket} {word : String} (h : (Terminal.name word).WellFormed) :
    Balanced bracket .code word.toList :=
  balanced_of_isCode (all_isCodeCharacter_of_isWord h.1)

/-! ## Statements -/

/-- The parentheses of every line are balanced, and so are the braces of the lines together. -/
structure WellNested (lines : List String) : Prop where
  parentheses : ∀ line ∈ lines, Balanced .parenthesis .code line.toList
  braces : Balanced .brace .code (unlines lines).toList

/-- The characters of some lines. -/
theorem toList_unlines_cons (line : String) (lines : List String) :
    (unlines (line :: lines)).toList = line.toList ++ '\n' :: (unlines lines).toList := by
  simp [unlines_cons, String.toList_append]

namespace WellNested

/-- Lines behind other lines. -/
theorem append {lines lines' : List String} (h : WellNested lines) (h' : WellNested lines') :
    WellNested (lines ++ lines') := by
  refine ⟨List.forall_mem_append.mpr ⟨h.parentheses, h'.parentheses⟩, ?_⟩
  rw [unlines_append, String.toList_append]
  exact h.braces.append h'.braces

/-- A single line in which both kinds of brackets are balanced. -/
theorem of_line {line : String} (h : ∀ bracket, Balanced bracket .code line.toList) :
    WellNested [line] := by
  have hend : Balanced .brace .code ['\n'] := by decide
  refine ⟨?_, ?_⟩
  · intro other hother
    rw [List.mem_singleton.mp hother]
    exact h .parenthesis
  · rw [toList_unlines_cons]
    exact (h .brace).append hend

end WellNested

/-- Balanced text in a fixed line. -/
theorem balanced_framed {bracket : Bracket} {region : Region} {left middle right : String}
    (h : Balanced bracket .code (left.toList ++ right.toList))
    (hleft : Region.code.after left.toList = region)
    (hmiddle : Balanced bracket region middle.toList) :
    Balanced bracket .code (left ++ middle ++ right).toList := by
  rw [String.toList_append, String.toList_append, List.append_assoc]
  exact h.insert hleft hmiddle

/-- A block is well nested if its condition holds no brackets and its statements are well
nested. -/
theorem wellNested_guarded {guard : Guard} {condition : Condition} {body : List Statement}
    (hcondition : ∀ bracket, Balanced bracket .code condition.code.toList)
    (hbody : WellNested (Statement.listLines body)) (opening blank : Nat) :
    WellNested (Statement.guarded guard condition opening body blank).lines := by
  refine ⟨?_, ?_⟩
  · rw [Statement.lines, List.forall_mem_cons, List.forall_mem_append]
    refine ⟨?_, hbody.parentheses, by decide⟩
    exact balanced_framed (by cases guard <;> decide) (by cases guard <;> decide)
      (hcondition .parenthesis)
  -- The statements are put between the braces first, then the condition in front of them.
  · have hinner : Balanced .brace .code ((guard.code ++ "()\x7b\n").toList ++
        ((unlines (Statement.listLines body)).toList ++ "\x7d\n".toList)) :=
      Balanced.insert (by cases guard <;> decide) (by cases guard <;> decide) hbody.braces
    have hchars : (unlines (Statement.guarded guard condition opening body blank).lines).toList =
        (guard.code ++ "(").toList ++ (condition.code.toList ++ (")\x7b\n".toList ++
          ((unlines (Statement.listLines body)).toList ++ "\x7d\n".toList))) := by
      simp [Statement.lines, toList_unlines_cons, unlines_append, String.toList_append]
    rw [hchars]
    refine Balanced.insert ?_ (by cases guard <;> decide) (hcondition .brace)
    simpa [String.toList_append] using hinner

/-- The lines that read a variable are well nested. -/
theorem wellNested_input {name : String} (h : (Terminal.name name).WellFormed) (blank : Nat) :
    WellNested (Statement.input name blank).lines := by
  have hname : ∀ bracket, Balanced bracket .code name.toList := fun _ => balanced_name h
  have hzero : ∀ bracket, Balanced bracket .code " = 0;".toList := by
    intro bracket
    cases bracket <;> decide
  refine ⟨?_, ?_⟩
  · simp only [Statement.lines, List.forall_mem_cons]
    refine ⟨balanced_framed (by decide) (by decide) (hname .parenthesis), ?_, by decide,
      by decide, by simp⟩
    rw [String.toList_append]
    exact (hname .parenthesis).append (hzero .parenthesis)
  · have hinner : Balanced .brace .code ("if(0 == scanf(\"%f\", &)) \x7b\n".toList ++
        (name.toList ++ " = 0;\nscanf(\"%*s\");\n\x7d\n".toList)) :=
      Balanced.insert (by decide) (by decide) (hname .brace)
    have hchars : (unlines (Statement.input name blank).lines).toList =
        "if(0 == scanf(\"%f\", &".toList ++ (name.toList ++ (")) \x7b\n".toList ++
          (name.toList ++ " = 0;\nscanf(\"%*s\");\n\x7d\n".toList))) := by
      simp [Statement.lines, toList_unlines_cons, String.toList_append]
    have hopening : "if(0 == scanf(\"%f\", &)) \x7b\n".toList =
        "if(0 == scanf(\"%f\", &".toList ++ ")) \x7b\n".toList := by decide
    rw [hopening, List.append_assoc] at hinner
    rw [hchars]
    exact hinner.insert (by decide) (hname .brace)

mutual

/-- The lines of a statement are well nested. -/
theorem Statement.wellNested (statement : Statement)
    (h : ∀ t ∈ statement.terminals, t.WellFormed) : WellNested statement.lines := by
  cases statement with
  | printText text blank =>
    have htext : ∀ c ∈ text.toList, Lexeme.isTextCharacter c = true :=
      h (.quoted text) (List.mem_cons_of_mem _ List.mem_cons_self)
    refine .of_line fun bracket => ?_
    exact balanced_framed (by cases bracket <;> decide) (by decide) (balanced_of_isText htext)
  | printValue value blank =>
    have hvalue := @Expression.all_isCodeCharacter value fun t ht =>
      h t (List.mem_cons_of_mem _ (List.mem_append_left _ ht))
    refine .of_line fun bracket => ?_
    exact balanced_framed (by cases bracket <;> decide) (by decide) (balanced_of_isCode hvalue)
  | guarded guard condition opening body blank =>
    have hcondition := @Condition.all_isCodeCharacter condition fun t ht =>
      h t (by simp [terminals, ht])
    have hbody := list_wellNested body fun t ht => h t (by simp [terminals, ht])
    exact wellNested_guarded (fun _ => balanced_of_isCode hcondition) hbody opening blank
  | label name blank =>
    have hname := h (.name name) (List.mem_cons_of_mem _ List.mem_cons_self)
    refine .of_line fun bracket => ?_
    rw [String.toList_append]
    exact (balanced_name hname).append (by cases bracket <;> decide)
  | jump name blank =>
    have hname := h (.name name) (List.mem_cons_of_mem _ List.mem_cons_self)
    refine .of_line fun bracket => ?_
    exact balanced_framed (by cases bracket <;> decide) (by decide) (balanced_name hname)
  | assignment name value blank =>
    have hname := h (.name name) (List.mem_cons_of_mem _ List.mem_cons_self)
    have hvalue := @Expression.all_isCodeCharacter value fun t ht => h t (by simp [terminals, ht])
    refine .of_line fun bracket => ?_
    have hmiddle : Balanced bracket .code " = ".toList := by cases bracket <;> decide
    have hclose : Balanced bracket .code ";".toList := by cases bracket <;> decide
    rw [String.toList_append, String.toList_append, String.toList_append]
    exact (((balanced_name hname).append hmiddle).append (balanced_of_isCode hvalue)).append hclose
  | input name blank =>
    exact wellNested_input (h (.name name) (List.mem_cons_of_mem _ List.mem_cons_self)) blank

/-- The lines of statements in a row are well nested. -/
theorem Statement.list_wellNested (statements : List Statement)
    (h : ∀ t ∈ listTerminals statements, t.WellFormed) : WellNested (listLines statements) := by
  cases statements with
  | nil => exact ⟨List.forall_mem_nil _, by decide⟩
  | cons statement statements =>
    exact (statement.wellNested fun t ht => h t (List.mem_append_left _ ht)).append
      (list_wellNested statements fun t ht => h t (List.mem_append_right _ ht))

end

/-- Declarations are well nested. -/
theorem wellNested_declarations {names : List String}
    (h : ∀ name ∈ names, (Terminal.name name).WellFormed) :
    WellNested (names.map Fragment.declaration) := by
  induction names with
  | nil => exact ⟨List.forall_mem_nil _, by decide⟩
  | cons name names ih =>
    obtain ⟨hname, hnames⟩ := List.forall_mem_cons.mp h
    have hline : WellNested [Fragment.declaration name] := by
      refine .of_line fun bracket => ?_
      exact balanced_framed (by cases bracket <;> decide) (by decide) (balanced_name hname)
    exact hline.append (ih hnames)

/-! ## Whole texts -/

/-- The text up to the brace that opens the main function. -/
def mainOpening : List Char :=
  "#include <stdio.h>\nint main(void)\x7b".toList

/-- Behind the brace that opens the main function the C text of a program is balanced up to the
brace that closes it. -/
theorem Program.exists_balanced_inner {program : Program}
    (h : ∀ t ∈ program.terminals, t.WellFormed) :
    ∃ inner, program.text.toList = mainOpening ++ inner ++ ['}', '\n'] ∧
      Balanced .brace .code inner := by
  have hnames := wellNested_declarations (program.wellFormed_variableNames h)
  have hbody := Statement.list_wellNested program.statements (wellFormed_statements h)
  have hstart : Balanced .brace .code ['\n'] := by decide
  have hend : Balanced .brace .code "return 0;\n".toList := by decide
  have hpreamble : (unlines Fragment.preamble).toList = mainOpening ++ ['\n'] := by decide
  have hfooter : (unlines footerLines).toList = "return 0;\n".toList ++ ['}', '\n'] := by decide
  have hheader : program.headerLines =
      Fragment.preamble ++ program.variableNames.map Fragment.declaration := rfl
  refine ⟨_, ?_, (hstart.append (hnames.append hbody).braces).append hend⟩
  rw [text, hheader, List.append_assoc Fragment.preamble, unlines_append, unlines_append,
    String.toList_append, String.toList_append, hpreamble, hfooter]
  simp only [List.append_assoc]
  rfl

/-- The parentheses of every line of the C text of a program are balanced. -/
theorem Program.balanced_codeLines {program : Program}
    (h : ∀ t ∈ program.terminals, t.WellFormed) :
    ∀ line ∈ codeLines program.text, Balanced .parenthesis .code line.toList := by
  have hnames := wellNested_declarations (program.wellFormed_variableNames h)
  have hbody := Statement.list_wellNested program.statements (wellFormed_statements h)
  rw [codeLines_text h, headerLines]
  simp only [List.forall_mem_append]
  exact ⟨⟨⟨by decide, hnames.parentheses⟩, hbody.parentheses⟩, by decide⟩

/-- The C text of a source is well nested: from the brace that opens the main function up to the
last brace of the text the depth is at least one, behind that brace it is zero, and in every line
the parentheses are balanced. What stands between quotes does not count. -/
theorem compile_wellNested {source code : String} (h : compile source = .ok code) :
    ∃ front, code.toList = front ++ ['}', '\n'] ∧ mainOpening <+: front ∧
      (∀ before, mainOpening <+: before → before <+: front →
        1 ≤ Bracket.brace.depth .code before) ∧
      Bracket.brace.depth .code (front ++ ['}']) = 0 ∧
      ∀ line ∈ codeLines code, Balanced .parenthesis .code line.toList := by
  obtain ⟨program, -, hwell, -, rfl⟩ := exists_program_of_compile h
  obtain ⟨inner, htext, hinner⟩ := program.exists_balanced_inner hwell
  have hregion : Region.code.after mainOpening = .code := by decide
  have hdepth : ∀ more, Bracket.brace.depth .code (mainOpening ++ more) =
      1 + Bracket.brace.depth .code more := by
    intro more
    have hopening : Bracket.brace.depth .code mainOpening = 1 := by decide
    rw [Bracket.depth_append, hopening, hregion]
  refine ⟨_, htext, List.prefix_append _ _, ?_, ?_, program.balanced_codeLines hwell⟩
  · intro before hopening hbefore
    obtain ⟨more, rfl⟩ := hopening
    have hplace := hinner.depth_nonneg more ((List.prefix_append_right_inj _).mp hbefore)
    rw [hdepth]
    omega
  · have hclosing : Bracket.brace.depth .code ['}'] = -1 := rfl
    rw [List.append_assoc, hdepth, Bracket.depth_append, hinner.depth_eq, hinner.after_eq, hclosing]
    rfl

/-- A text full of brackets, in a block. -/
theorem compile_wellNested_brackets :
    let code := "#include <stdio.h>\nint main(void)\x7b\nfloat n;\n" ++
      "if(0 == scanf(\"%f\", &n)) \x7b\nn = 0;\nscanf(\"%*s\");\n\x7d\n" ++
      "while(n > 0)\x7b\nprintf(\"\x7d)#/\x7b(\\n\");\n\x7d\nreturn 0;\n\x7d\n"
    compile "INPUT n\nWHILE n > 0 REPEAT\nPRINT \"\x7d)#/\x7b(\"\nENDWHILE\n" = .ok code ∧
      ∃ front, code.toList = front ++ ['}', '\n'] ∧ mainOpening <+: front ∧
        (∀ before, mainOpening <+: before → before <+: front →
          1 ≤ Bracket.brace.depth .code before) ∧
        Bracket.brace.depth .code (front ++ ['}']) = 0 ∧
        ∀ line ∈ codeLines code, Balanced .parenthesis .code line.toList := by
  intro code
  have h : compile "INPUT n\nWHILE n > 0 REPEAT\nPRINT \"\x7d)#/\x7b(\"\nENDWHILE\n" =
      .ok code := by
    decide +kernel
  exact ⟨h, compile_wellNested h⟩

end BasicCompiler
