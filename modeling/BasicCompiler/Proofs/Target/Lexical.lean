import BasicCompiler.Proofs.Decoding.Spelling

/-!
# The tokens of C

The lexical rules of C: at each place of a text, the longest piece that can be a token is one.
Header names and the letters in front of a literal are left out. Read `Expression.spellsInC` first:
expressions are written in such a way that no two of their operands, signs and operators grow
together.
-/

namespace BasicCompiler

namespace C

/-- The tokens of C. A number is what C calls a preprocessing number, which need not be the text of
a constant. -/
inductive Token where
  | number (text : String)
  | name (word : String)
  | literal (text : String)
  | punctuator (spelling : String)
  | other (c : Char)
deriving DecidableEq, Repr

/-! ## Reading -/

/-- The characters that separate tokens. -/
def isSpace (c : Char) : Bool :=
  c == ' ' || c == '\t' || c == '\n' || c == '\x0b' || c == '\x0c'

/-- The characters that begin a name. -/
def beginsName (c : Char) : Bool :=
  c.isAlpha || c == '_'

/-- The characters that continue a name. -/
def continuesName (c : Char) : Bool :=
  c.isAlphanum || c == '_'

/-- The letters behind which a sign continues a number. -/
def isExponent (c : Char) : Bool :=
  c == 'e' || c == 'E' || c == 'p' || c == 'P'

/-- The character continues a number whose last character is `previous`. -/
def continuesNumber (previous c : Char) : Bool :=
  continuesName c || c == '.' || (isExponent previous && (c == '+' || c == '-'))

/-- The rest of a number whose last character so far is `previous`. -/
def numberTail (previous : Char) : List Char → List Char
  | [] => []
  | c :: cs => if continuesNumber previous c then c :: numberTail c cs else []

/-- The rest of a string or character literal, with the quote at its end. -/
def literalTail? (quote : Char) : List Char → Option (List Char)
  | [] => none
  | '\\' :: c :: cs => (literalTail? quote cs).map fun tail => '\\' :: c :: tail
  | c :: cs =>
    if c = quote then some [c]
    else if c = '\n' then none
    else (literalTail? quote cs).map fun tail => c :: tail

/-- What is left behind the end of a comment that may go over several lines. -/
def behindBlock : List Char → List Char
  | [] => []
  | '*' :: '/' :: cs => cs
  | _ :: cs => behindBlock cs

/-- What is left behind a comment, if the text begins with one. -/
def behindComment? : List Char → Option (List Char)
  | '/' :: '/' :: cs => some (cs.dropWhile fun c => c != '\n')
  | '/' :: '*' :: cs => some (behindBlock cs)
  | _ => none

/-- The punctuators, longer ones in front of shorter ones. -/
def punctuators : List String :=
  ["%:%:", "...", "<<=", ">>=", "->", "++", "--", "<<", ">>", "<=", ">=", "==", "!=", "&&", "||",
    "*=", "/=", "%=", "+=", "-=", "&=", "^=", "|=", "##", "<:", ":>", "<%", "%>", "%:", "[", "]",
    "(", ")", "\x7b", "\x7d", ".", "&", "*", "+", "-", "~", "!", "/", "%", "<", ">", "^", "|", "?",
    ":", ";", "=", ",", "#"]

/-- The longest punctuator with which the text begins. -/
def punctuator? (cs : List Char) : Option String :=
  punctuators.find? fun spelling => spelling.toList.isPrefixOf cs

/-- A token, if there is one, and what is left of the text. -/
structure Piece where
  token? : Option Token
  rest : List Char
deriving DecidableEq, Repr

/-- The piece with which the text `c :: cs` begins. -/
def piece (c : Char) (cs : List Char) : Piece :=
  if isSpace c then ⟨none, cs⟩
  else if beginsName c then
    ⟨some (.name (String.ofList (c :: cs.takeWhile continuesName))), cs.dropWhile continuesName⟩
  else if c.isDigit || (c == '.' && cs.head?.any Char.isDigit) then
    ⟨some (.number (String.ofList (c :: numberTail c cs))), cs.drop (numberTail c cs).length⟩
  else if c == '"' || c == '\'' then
    match literalTail? c cs with
    | some tail => ⟨some (.literal (String.ofList (c :: tail))), cs.drop tail.length⟩
    | none => ⟨some (.other c), cs⟩
  else
    match behindComment? (c :: cs) with
    | some rest => ⟨none, rest⟩
    | none =>
      match punctuator? (c :: cs) with
      | some spelling => ⟨some (.punctuator spelling), cs.drop (spelling.length - 1)⟩
      | none => ⟨some (.other c), cs⟩

/-- A comment is not longer than the text it stands in. -/
theorem length_behindBlock_le (cs : List Char) : (behindBlock cs).length ≤ cs.length := by
  fun_induction behindBlock cs with
  | case1 => exact Nat.le_refl _
  | case2 cs => simp; omega
  | case3 c cs _ ih => simp; omega

/-- Behind a comment less text is left. -/
theorem length_behindComment?_le {c : Char} {cs rest : List Char}
    (h : behindComment? (c :: cs) = some rest) : rest.length ≤ cs.length := by
  unfold behindComment? at h
  split at h
  · next heq =>
    cases heq
    cases h
    exact Nat.le_succ_of_le (List.dropWhile_sublist _).length_le
  · next heq =>
    cases heq
    cases h
    exact Nat.le_succ_of_le (length_behindBlock_le _)
  · cases h

/-- Every piece takes a character at least. -/
theorem length_rest_piece_le (c : Char) (cs : List Char) :
    (piece c cs).rest.length ≤ cs.length := by
  unfold piece
  split
  · exact Nat.le_refl _
  split
  · exact (List.dropWhile_sublist _).length_le
  split
  · exact (List.drop_sublist _ _).length_le
  split
  · split
    · exact (List.drop_sublist _ _).length_le
    · exact Nat.le_refl _
  split
  · next hcomment => exact length_behindComment?_le hcomment
  · split
    · exact (List.drop_sublist _ _).length_le
    · exact Nat.le_refl _

/-- The tokens of a text. -/
def tokens : List Char → List Token
  | [] => []
  | c :: cs => (piece c cs).token?.toList ++ tokens (piece c cs).rest
termination_by cs => cs.length
decreasing_by exact Nat.lt_succ_of_le (length_rest_piece_le c cs)

/-- The first piece of a text, and the tokens behind it. -/
theorem tokens_cons {c : Char} {cs : List Char} {token? : Option Token} {rest : List Char}
    (h : piece c cs = ⟨token?, rest⟩) : tokens (c :: cs) = token?.toList ++ tokens rest := by
  rw [tokens, h]

/-! ## Where tokens end -/

/-- The text does not begin with a character that continues a name or a number. -/
def Seam (rest : List Char) : Prop :=
  ∀ c, rest.head? = some c → continuesName c = false ∧ c ≠ '.'

/-- A text begins with a seam if its first character continues neither. -/
theorem seam_cons {first : Char} (hname : continuesName first = false) (hpoint : first ≠ '.')
    (rest : List Char) : Seam (first :: rest) := by
  intro c hc
  cases hc
  exact ⟨hname, hpoint⟩

/-- Letters and digits continue a name. -/
theorem continuesName_of_isAlphanum {c : Char} (h : c.isAlphanum = true) :
    continuesName c = true := by
  rw [continuesName, h]
  rfl

/-- Letters and digits do not separate tokens. -/
theorem isSpace_of_isAlphanum {c : Char} (h : c.isAlphanum = true) : isSpace c = false := by
  have hne : ∀ d : Char, d.isAlphanum = false → c ≠ d := fun d hd => ne_of_class h hd
  simp [isSpace, hne ' ' rfl, hne '\t' rfl, hne '\n' rfl, hne '\x0b' rfl, hne '\x0c' rfl]

/-- Spaces separate tokens. -/
theorem tokens_space (cs : List Char) : tokens (' ' :: cs) = tokens cs :=
  tokens_cons rfl

/-- A word is one name. -/
theorem tokens_name {word : String} (h : IsWord word.toList) {rest : List Char}
    (hrest : Seam rest) : tokens (word.toList ++ rest) = .name word :: tokens rest := by
  have hword : String.ofList word.toList = word := String.ofList_toList
  generalize word.toList = cs at h hword
  cases h with
  | @intro first more hfirst hmore =>
    have hspace : isSpace first = false :=
      isSpace_of_isAlphanum (Text.isAlphanum_of_isAlpha hfirst)
    have hbegins : beginsName first = true := by simp [beginsName, hfirst]
    obtain ⟨htake, hdrop⟩ := takeWhile_append_of_boundary
      (fun c hc => continuesName_of_isAlphanum (hmore c hc)) fun c hc => (hrest c hc).1
    have hpiece : piece first (more ++ rest) = ⟨some (.name word), rest⟩ := by
      simp [piece, hspace, hbegins, htake, hdrop, hword]
    exact tokens_cons hpiece

/-- The digits and the point of a numeral belong to one number, up to a seam. -/
theorem numberTail_append {cs rest : List Char} (hcs : ∀ c ∈ cs, c.isDigit = true ∨ c = '.')
    (hrest : Seam rest) {previous : Char} (hprevious : previous.isDigit = true ∨ previous = '.') :
    numberTail previous (cs ++ rest) = cs := by
  induction cs generalizing previous with
  | nil =>
    cases rest with
    | nil => rfl
    | cons c rest =>
      obtain ⟨hname, hpoint⟩ := hrest c rfl
      have hexponent : isExponent previous = false := by
        rcases hprevious with hdigit | rfl
        · simp [isExponent, ne_of_class hdigit (d := 'e') rfl, ne_of_class hdigit (d := 'E') rfl,
            ne_of_class hdigit (d := 'p') rfl, ne_of_class hdigit (d := 'P') rfl]
        · rfl
      simp [numberTail, continuesNumber, hname, hpoint, hexponent]
  | cons c cs ih =>
    obtain ⟨hfirst, hothers⟩ := List.forall_mem_cons.mp hcs
    have hcontinues : continuesNumber previous c = true := by
      rcases hfirst with hdigit | rfl
      · simp [continuesNumber, continuesName, Text.isAlphanum_of_isDigit hdigit]
      · simp [continuesNumber]
    rw [List.cons_append, numberTail, if_pos hcontinues, ih hothers hfirst]

/-- A numeral is one number. -/
theorem tokens_number {digits : String} (h : IsNumeral digits.toList) {rest : List Char}
    (hrest : Seam rest) : tokens (digits.toList ++ rest) = .number digits :: tokens rest := by
  have hdigits : String.ofList digits.toList = digits := String.ofList_toList
  obtain ⟨first, more, hcs, hfirst, hmore⟩ := h.exists_cons
  rw [hcs] at hdigits ⊢
  have hspace : isSpace first = false :=
    isSpace_of_isAlphanum (Text.isAlphanum_of_isDigit hfirst)
  have hbegins : beginsName first = false := by
    have halpha : first.isAlpha = false := by
      rw [Bool.eq_false_iff]
      intro halpha
      rw [isDigit_of_isAlpha halpha] at hfirst
      cases hfirst
    simp [beginsName, halpha, ne_of_class hfirst (d := '_') rfl]
  have htail : numberTail first (more ++ rest) = more := numberTail_append hmore hrest (.inl hfirst)
  have hpiece : piece first (more ++ rest) = ⟨some (.number digits), rest⟩ := by
    simp [piece, hspace, hbegins, hfirst, htail, hdigits]
  exact tokens_cons hpiece

/-! ## Where punctuators end -/

/-- A text does not go on over a character that it does not hold. -/
theorem isPrefixOf_append_of_not_mem {spelling cs : List Char} {d : Char} (h : d ∉ spelling)
    (rest : List Char) : spelling.isPrefixOf (cs ++ d :: rest) = spelling.isPrefixOf cs := by
  induction spelling generalizing cs with
  | nil => cases cs <;> rfl
  | cons c spelling ih =>
    obtain ⟨hfirst, hothers⟩ := not_or.mp (mt List.mem_cons.mpr h)
    cases cs with
    | nil => simp [List.isPrefixOf, Ne.symm hfirst]
    | cons c' cs => simp [List.isPrefixOf, ih hothers]

/-- No punctuator goes on over a character that is in none of them. -/
theorem punctuator?_append {d : Char} (h : ∀ spelling ∈ punctuators, d ∉ spelling.toList)
    (cs rest : List Char) : punctuator? (cs ++ d :: rest) = punctuator? cs := by
  unfold punctuator?
  generalize punctuators = spellings at h
  induction spellings with
  | nil => rfl
  | cons spelling spellings ih =>
    obtain ⟨hfirst, hothers⟩ := List.forall_mem_cons.mp h
    rw [List.find?_cons, List.find?_cons, isPrefixOf_append_of_not_mem hfirst, ih hothers]

/-- Letters, digits and the space. -/
def isPlain (c : Char) : Bool :=
  c.isAlphanum || c == ' '

/-- Letters and digits are plain. -/
theorem isPlain_of_isAlphanum {c : Char} (h : c.isAlphanum = true) : isPlain c = true := by
  rw [isPlain, h]
  rfl

/-- There is no plain character in a punctuator. -/
theorem not_mem_punctuator {d : Char} (h : isPlain d = true) :
    ∀ spelling ∈ punctuators, d ∉ spelling.toList := by
  have hnone :
      (punctuators.all fun spelling => spelling.toList.all fun c => !isPlain c) = true := by
    decide
  intro spelling hspelling hmem
  have hplain := List.all_eq_true.mp (List.all_eq_true.mp hnone spelling hspelling) d hmem
  rw [h] at hplain
  cases hplain

/-- What begins nothing else begins a punctuator. -/
theorem piece_punctuator {c : Char} {cs : List Char} {spelling : String}
    (hclass : (isSpace c || beginsName c || c.isDigit || c == '.' || c == '"' || c == '\'') = false)
    (hcomment : behindComment? (c :: cs) = none)
    (hlongest : punctuator? (c :: cs) = some spelling) :
    piece c cs = ⟨some (.punctuator spelling), cs.drop (spelling.length - 1)⟩ := by
  simp only [Bool.or_eq_false_iff] at hclass
  simp [piece, hclass, hcomment, hlongest]

/-- An operator in front of a plain character is one punctuator. -/
theorem tokens_operator (o : Operator) {d : Char} (h : isPlain d = true) (rest : List Char) :
    tokens (o.spelling.toList ++ d :: rest) = .punctuator o.spelling :: tokens (d :: rest) := by
  have hlongest : punctuator? (o.spelling.toList ++ d :: rest) = some o.spelling := by
    rw [punctuator?_append (not_mem_punctuator h)]
    cases o <;> decide
  have hslash : d ≠ '/' := ne_of_class h rfl
  have hstar : d ≠ '*' := ne_of_class h rfl
  have hcomment : behindComment? (o.spelling.toList ++ d :: rest) = none := by
    cases o <;> simp [Operator.spelling, behindComment?, hslash, hstar]
  cases o <;> exact tokens_cons (piece_punctuator rfl hcomment hlongest)

/-! ## Operands and operators -/

/-- The token that stands for an operand or an operator. -/
def Token.ofTerminal (terminal : Terminal) : Token :=
  match terminal.kind with
  | .number => .number terminal.text
  | .name => .name terminal.text
  | _ => .punctuator terminal.text

/-- The tokens of the code are those of the terminals, wherever it ends at a seam. -/
def Spells (code : String) (terminals : List Terminal) : Prop :=
  ∀ rest, Seam rest → tokens (code.toList ++ rest) = terminals.map Token.ofTerminal ++ tokens rest

end C

/-- An operand is one token. -/
theorem Operand.spellsInC {operand : Operand} (h : ∀ t ∈ operand.terminals, t.WellFormed) :
    C.Spells operand.code operand.terminals := by
  intro rest hrest
  cases operand with
  | number digits =>
    have hwell : (Terminal.number digits).WellFormed := h _ List.mem_cons_self
    exact C.tokens_number hwell hrest
  | name word =>
    have hwell : (Terminal.name word).WellFormed := h _ List.mem_cons_self
    exact C.tokens_name hwell.1 hrest

/-- An operand begins with a letter or a digit. -/
theorem Operand.exists_code_eq_cons {operand : Operand}
    (h : ∀ t ∈ operand.terminals, t.WellFormed) :
    ∃ first more, operand.code.toList = first :: more ∧ C.isPlain first = true := by
  cases operand with
  | number digits =>
    have hwell : (Terminal.number digits).WellFormed := h _ List.mem_cons_self
    obtain ⟨first, more, hcode, hfirst, -⟩ := IsNumeral.exists_cons hwell
    exact ⟨first, more, hcode, C.isPlain_of_isAlphanum (Text.isAlphanum_of_isDigit hfirst)⟩
  | name word =>
    have hwell : (Terminal.name word).WellFormed := h _ List.mem_cons_self
    have hword : IsWord (Operand.name word).code.toList := hwell.1
    generalize (Operand.name word).code.toList = cs at hword ⊢
    cases hword with
    | intro hfirst hmore =>
      exact ⟨_, _, rfl, C.isPlain_of_isAlphanum (Text.isAlphanum_of_isAlpha hfirst)⟩

/-- A sign does not grow together with its operand. -/
theorem Factor.spellsInC {factor : Factor} (h : ∀ t ∈ factor.terminals, t.WellFormed) :
    C.Spells factor.code factor.terminals := by
  obtain ⟨sign, operand⟩ := factor
  intro rest hrest
  cases sign with
  | none =>
    have hcode : Factor.code ⟨none, operand⟩ = operand.code := String.empty_append
    rw [hcode]
    exact Operand.spellsInC h rest hrest
  | some sign =>
    have hwell : ∀ t ∈ operand.terminals, t.WellFormed := fun t ht =>
      h t (List.mem_cons_of_mem _ ht)
    obtain ⟨first, more, hfirst, hplain⟩ := Operand.exists_code_eq_cons hwell
    have hcode : (Factor.code ⟨some sign, operand⟩).toList =
        sign.operator.spelling.toList ++ operand.code.toList := String.toList_append
    have hoperand := Operand.spellsInC hwell rest hrest
    rw [hfirst, List.cons_append] at hoperand
    rw [hcode, hfirst, List.append_assoc, List.cons_append, C.tokens_operator _ hplain, hoperand]
    rfl

section Chains

variable {joins : Operator → Bool} {Part : Type} {code : Part → String}
  {terminals : Part → List Terminal}

/-- Links begin with a space, so a part ends in front of them. -/
theorem Link.seamInC_code (links : List (Link joins Part)) {rest : List Char}
    (hrest : C.Seam rest) : C.Seam ((Link.code code links).toList ++ rest) := by
  cases links with
  | nil => exact hrest
  | cons link links =>
    have hcode : (Link.code code (link :: links)).toList = ' ' ::
        ((Link.code code (link :: links)).toList.tail) := by
      simp [Link.code, String.toList_append]
    rw [hcode]
    exact C.seam_cons rfl (by decide) _

/-- An operator between its spaces grows together with neither of its sides. -/
theorem Link.spellsInC
    (hpart : ∀ part, (∀ t ∈ terminals part, t.WellFormed) → C.Spells (code part) (terminals part))
    {links : List (Link joins Part)} (h : ∀ t ∈ Link.terminals terminals links, t.WellFormed) :
    C.Spells (Link.code code links) (Link.terminals terminals links) := by
  induction links with
  | nil => exact fun rest _ => rfl
  | cons link links ih =>
    intro rest hrest
    have hterminals : Link.terminals terminals (link :: links) =
        .operator link.operator :: terminals link.part ++ Link.terminals terminals links := rfl
    rw [hterminals] at h ⊢
    have hcode : (Link.code code (link :: links)).toList =
        ' ' :: (link.operator.spelling.toList ++ ' ' ::
          ((code link.part).toList ++ (Link.code code links).toList)) := by
      simp [Link.code, String.toList_append]
    have hothers := ih (fun t ht => h t (List.mem_append_right _ ht)) rest hrest
    have hseam : C.Seam ((Link.code code links).toList ++ rest) := Link.seamInC_code links hrest
    have hfirst := hpart link.part
      (fun t ht => h t (List.mem_append_left _ (List.mem_cons_of_mem _ ht))) _ hseam
    rw [hcode, List.cons_append, C.tokens_space, List.append_assoc, List.cons_append,
      C.tokens_operator _ rfl, C.tokens_space, List.append_assoc, hfirst, hothers,
      List.map_append, List.append_assoc]
    rfl

/-- What ends at a seam does not grow together with the links behind it. -/
theorem C.Spells.append_links {first : String} {firstTerminals : List Terminal}
    (hfirst : C.Spells first firstTerminals) {links : List (Link joins Part)}
    (hlinks : C.Spells (Link.code code links) (Link.terminals terminals links)) :
    C.Spells (first ++ Link.code code links)
      (firstTerminals ++ Link.terminals terminals links) := by
  intro rest hrest
  rw [String.toList_append, List.append_assoc, hfirst _ (Link.seamInC_code links hrest),
    hlinks rest hrest, List.map_append, List.append_assoc]

/-- The tokens of a chain are those of its parts and operators. -/
theorem Chain.spellsInC
    (hpart : ∀ part, (∀ t ∈ terminals part, t.WellFormed) → C.Spells (code part) (terminals part))
    {chain : Chain joins Part} (h : ∀ t ∈ Chain.terminals terminals chain, t.WellFormed) :
    C.Spells (Chain.code code chain) (Chain.terminals terminals chain) := by
  have hfirst := hpart chain.first fun t ht => h t (List.mem_append_left _ ht)
  have hlinks := Link.spellsInC hpart fun t ht => h t (List.mem_append_right _ ht)
  exact hfirst.append_links hlinks

end Chains

/-- The tokens of a term are those of its factors and operators. -/
theorem Term.spellsInC {term : Term} (h : ∀ t ∈ term.terminals, t.WellFormed) :
    C.Spells term.code term.terminals :=
  Chain.spellsInC (fun _ => Factor.spellsInC) h

/-- The tokens of an expression are its terminals. -/
theorem Expression.spellsInC {expression : Expression}
    (h : ∀ t ∈ expression.terminals, t.WellFormed) :
    C.Spells expression.code expression.terminals :=
  Chain.spellsInC (fun _ => Term.spellsInC) h

end BasicCompiler
