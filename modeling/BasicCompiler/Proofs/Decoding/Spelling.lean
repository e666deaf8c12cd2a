import BasicCompiler.Proofs.Grammar.Tree
import BasicCompiler.Proofs.Lexing.Printing

/-!
# Reading expressions in the C text

Expressions are written in the C text as they are written in a program, so the lexical rules of
programs read them back. `Spells` says that a piece of C text is read as some terminals, wherever
it ends at a character that belongs to no expression. Read `Expression.spells` and
`Condition.spells` first.
-/

namespace BasicCompiler

/-- The text does not begin with a character that could belong to an operand or an operator. -/
def Seam (rest : List Char) : Prop :=
  ∀ c, rest.head? = some c → c.isAlphanum = false ∧ c ≠ '.' ∧ c ≠ '='

/-- A text begins with a seam if its first character belongs to no operand and no operator. -/
theorem seam_cons {first : Char} (halphanum : first.isAlphanum = false) (hpoint : first ≠ '.')
    (hequals : first ≠ '=') (rest : List Char) : Seam (first :: rest) := by
  intro c hc
  cases hc
  exact ⟨halphanum, hpoint, hequals⟩

/-- A seam ends every terminal. -/
theorem Seam.endsBefore {rest : List Char} (h : Seam rest) (terminal : Terminal) :
    terminal.EndsBefore rest := by
  intro c hc
  obtain ⟨halphanum, hpoint, hequals⟩ := h c hc
  have hdigit : c.isDigit = false := by
    rw [Bool.eq_false_iff]
    intro hdigit
    rw [Text.isAlphanum_of_isDigit hdigit] at halphanum
    cases halphanum
  obtain ⟨kind, text⟩ := terminal
  cases kind <;> simp [Terminal.extendedBy, halphanum, hdigit, hpoint, hequals]

/-- The characters of the code could stand in a quoted text, there is no line end among the
terminals, and the code is read as the terminals. -/
structure Spells (code : String) (terminals : List Terminal) : Prop where
  not_lineEnd : ∀ t ∈ terminals, t.kind ≠ .lineEnd
  isText : code.toList.all Lexeme.isTextCharacter = true
  scan_append : ∀ rest, Seam rest →
    scan (code.toList ++ rest) = terminals.map .ok ++ scan rest

/-- A letter or a digit can stand in a quoted text. -/
theorem isTextCharacter_of_isAlphanum {c : Char} (h : c.isAlphanum = true) :
    Lexeme.isTextCharacter c = true := by
  have hne : ∀ d : Char, d.isAlphanum = false → c ≠ d := fun d hd => ne_of_class h hd
  simp [Lexeme.isTextCharacter, hne '"' rfl, hne '\r' rfl, hne '\n' rfl, hne '\t' rfl,
    hne '\\' rfl, hne '%' rfl]

/-- A word consists of letters and digits. -/
theorem isAlphanum_of_isWord {cs : List Char} (h : IsWord cs) : ∀ c ∈ cs, c.isAlphanum = true := by
  cases h with
  | intro hfirst hmore =>
    intro c hc
    rcases List.mem_cons.mp hc with rfl | hc
    · exact Text.isAlphanum_of_isAlpha hfirst
    · exact hmore c hc

/-- The characters of a word can stand in a quoted text. -/
theorem all_isTextCharacter_of_isWord {cs : List Char} (h : IsWord cs) :
    cs.all Lexeme.isTextCharacter = true :=
  List.all_eq_true.mpr fun c hc => isTextCharacter_of_isAlphanum (isAlphanum_of_isWord h c hc)

/-- The characters of a number can stand in a quoted text. -/
theorem all_isTextCharacter_of_isNumeral {cs : List Char} (h : IsNumeral cs) :
    cs.all Lexeme.isTextCharacter = true := by
  have hdigits : ∀ {digits : List Char}, IsDigits digits →
      digits.all Lexeme.isTextCharacter = true := by
    intro digits hdigits
    refine List.all_eq_true.mpr fun c hc => ?_
    exact isTextCharacter_of_isAlphanum (Text.isAlphanum_of_isDigit (hdigits.isDigit c hc))
  cases h with
  | whole hwhole => exact hdigits hwhole
  | decimal hwhole hfraction =>
    have hpoint : Lexeme.isTextCharacter '.' = true := rfl
    rw [List.all_append, List.all_cons, hdigits hwhole, hdigits hfraction, hpoint]
    rfl

/-- An operand is read back. -/
theorem Operand.spells {operand : Operand} (h : ∀ t ∈ operand.terminals, t.WellFormed) :
    Spells operand.code operand.terminals := by
  cases operand with
  | number digits =>
    have hwell : (Terminal.number digits).WellFormed := h _ List.mem_cons_self
    refine ⟨by simp [terminals, Terminal.number], all_isTextCharacter_of_isNumeral hwell,
      fun rest hrest => ?_⟩
    exact scan_lexeme_append hwell Kind.noConfusion (hrest.endsBefore _)
  | name word =>
    have hwell : (Terminal.name word).WellFormed := h _ List.mem_cons_self
    refine ⟨by simp [terminals, Terminal.name], all_isTextCharacter_of_isWord hwell.1,
      fun rest hrest => ?_⟩
    exact scan_lexeme_append hwell Kind.noConfusion (hrest.endsBefore _)

/-- An operator can stand in a quoted text. -/
theorem all_isTextCharacter_spelling (o : Operator) :
    o.spelling.toList.all Lexeme.isTextCharacter = true := by
  cases o <;> decide

/-- An operator is read back where no equals sign extends it. -/
theorem scan_spelling_append (o : Operator) {rest : List Char}
    (hrest : (Terminal.operator o).EndsBefore rest) :
    scan (o.spelling.toList ++ rest) = .ok (.operator o) :: scan rest := by
  have hwell : (Terminal.operator o).WellFormed := rfl
  exact scan_lexeme_append hwell Kind.noConfusion hrest

/-- A factor is read back: nothing in an operand extends its sign. -/
theorem Factor.spells {factor : Factor} (h : ∀ t ∈ factor.terminals, t.WellFormed) :
    Spells factor.code factor.terminals := by
  obtain ⟨sign, operand⟩ := factor
  cases sign with
  | none =>
    have hcode : Factor.code ⟨none, operand⟩ = operand.code := String.empty_append
    rw [hcode]
    exact Operand.spells h
  | some sign =>
    have hoperand := Operand.spells fun t ht => h t (List.mem_cons_of_mem _ ht)
    have hsign : ∀ rest, (Terminal.operator sign.operator).EndsBefore rest := by
      intro rest c _
      obtain ⟨o, ho⟩ := sign
      cases o with
      | plus | minus => rfl
      | _ => cases ho
    have hcode : (Factor.code ⟨some sign, operand⟩).toList =
        sign.operator.spelling.toList ++ operand.code.toList := String.toList_append
    refine ⟨?_, ?_, fun rest hrest => ?_⟩
    · exact List.forall_mem_cons.mpr ⟨Kind.noConfusion, hoperand.not_lineEnd⟩
    · rw [hcode, List.all_append, all_isTextCharacter_spelling, hoperand.isText]
      rfl
    · rw [hcode, List.append_assoc, scan_spelling_append _ (hsign _),
        hoperand.scan_append rest hrest]
      rfl

section Chains

variable {joins : Operator → Bool} {Part : Type} {code : Part → String}
  {terminals : Part → List Terminal}

/-- Links begin with a space, so a part ends in front of them. -/
theorem Link.seam_code (links : List (Link joins Part)) {rest : List Char} (hrest : Seam rest) :
    Seam ((Link.code code links).toList ++ rest) := by
  cases links with
  | nil => exact hrest
  | cons link links =>
    intro c hc
    have hspace : c = ' ' := by
      simp [Link.code, String.toList_append] at hc
      exact hc.symm
    rw [hspace]
    decide

/-- Links are read back if their parts are. -/
theorem Link.spells
    (hpart : ∀ part, (∀ t ∈ terminals part, t.WellFormed) → Spells (code part) (terminals part))
    {links : List (Link joins Part)} (h : ∀ t ∈ Link.terminals terminals links, t.WellFormed) :
    Spells (Link.code code links) (Link.terminals terminals links) := by
  induction links with
  | nil =>
    exact ⟨List.forall_mem_nil _, rfl, fun _ _ => rfl⟩
  | cons link links ih =>
    have hterminals : Link.terminals terminals (link :: links) =
        .operator link.operator :: terminals link.part ++ Link.terminals terminals links := rfl
    rw [hterminals] at h ⊢
    have hfirst := hpart link.part fun t ht =>
      h t (List.mem_append_left _ (List.mem_cons_of_mem _ ht))
    have hothers := ih fun t ht => h t (List.mem_append_right _ ht)
    have hcode : (Link.code code (link :: links)).toList =
        ' ' :: (link.operator.spelling.toList ++ ' ' ::
          ((code link.part).toList ++ (Link.code code links).toList)) := by
      simp [Link.code, String.toList_append]
    refine ⟨?_, ?_, fun rest hrest => ?_⟩
    · exact List.forall_mem_append.mpr
        ⟨List.forall_mem_cons.mpr ⟨Kind.noConfusion, hfirst.not_lineEnd⟩, hothers.not_lineEnd⟩
    · have hspace : Lexeme.isTextCharacter ' ' = true := rfl
      simp only [hcode, List.all_cons, List.all_append, hspace, all_isTextCharacter_spelling,
        hfirst.isText, hothers.isText, Bool.and_self]
    -- The space in front of the next operator ends the part before it.
    · have hbehind := hothers.scan_append rest hrest
      have hseam : Seam ((Link.code code links).toList ++ rest) := Link.seam_code links hrest
      have hbefore := hfirst.scan_append _ hseam
      rw [hcode, List.cons_append, scan_space, List.append_assoc, List.cons_append,
        scan_spelling_append _ (endsBefore_space _ _), scan_space, List.append_assoc, hbefore,
        hbehind, List.map_append, List.append_assoc]
      rfl

/-- What is read back in front of links that are read back is read back together with them. -/
theorem Spells.append_links {first : String} {firstTerminals : List Terminal}
    (hfirst : Spells first firstTerminals) {links : List (Link joins Part)}
    (hlinks : Spells (Link.code code links) (Link.terminals terminals links)) :
    Spells (first ++ Link.code code links)
      (firstTerminals ++ Link.terminals terminals links) := by
  refine ⟨List.forall_mem_append.mpr ⟨hfirst.not_lineEnd, hlinks.not_lineEnd⟩, ?_,
    fun rest hrest => ?_⟩
  · rw [String.toList_append, List.all_append, hfirst.isText, hlinks.isText]
    rfl
  · rw [String.toList_append, List.append_assoc,
      hfirst.scan_append _ (Link.seam_code links hrest), hlinks.scan_append rest hrest,
      List.map_append, List.append_assoc]

/-- A chain is read back if its parts are. -/
theorem Chain.spells
    (hpart : ∀ part, (∀ t ∈ terminals part, t.WellFormed) → Spells (code part) (terminals part))
    {chain : Chain joins Part} (h : ∀ t ∈ Chain.terminals terminals chain, t.WellFormed) :
    Spells (Chain.code code chain) (Chain.terminals terminals chain) := by
  have hfirst := hpart chain.first fun t ht => h t (List.mem_append_left _ ht)
  have hlinks := Link.spells hpart fun t ht => h t (List.mem_append_right _ ht)
  exact hfirst.append_links hlinks

end Chains

/-- A term is read back. -/
theorem Term.spells {term : Term} (h : ∀ t ∈ term.terminals, t.WellFormed) :
    Spells term.code term.terminals :=
  Chain.spells (fun _ => Factor.spells) h

/-- An expression is read back. -/
theorem Expression.spells {expression : Expression}
    (h : ∀ t ∈ expression.terminals, t.WellFormed) :
    Spells expression.code expression.terminals :=
  Chain.spells (fun _ => Term.spells) h

/-- A condition is read back. -/
theorem Condition.spells {condition : Condition} (h : ∀ t ∈ condition.terminals, t.WellFormed) :
    Spells condition.code condition.terminals := by
  have hfirst := Expression.spells fun t ht => h t (List.mem_append_left _ ht)
  have hlinks := Link.spells (fun _ => Expression.spells) fun t ht =>
    h t (List.mem_append_right _ ht)
  exact hfirst.append_links hlinks

end BasicCompiler
