import BasicCompiler.Token.Stream

/-!
# Terminals

A terminal is a token without its place: what the grammar sees. `Terminal.WellFormed` says which
texts belong to which kind. Read `Lexeme.isSound_read` first: a lexeme that is accepted is
well-formed and never the end of the input.
-/

namespace BasicCompiler

/-- A token without its place. -/
structure Terminal where
  kind : Kind
  text : String
deriving DecidableEq, Repr

/-- The token without its place. -/
def Token.terminal (token : Token) : Terminal :=
  ⟨token.kind, token.text⟩

/-- At least one character, and all of them digits. -/
structure IsDigits (cs : List Char) : Prop where
  ne_nil : cs ≠ []
  isDigit : ∀ c ∈ cs, c.isDigit = true

/-- Digits, or digits on both sides of a point. -/
inductive IsNumeral : List Char → Prop where
  | whole {digits : List Char} (h : IsDigits digits) : IsNumeral digits
  | decimal {digits fraction : List Char} (h : IsDigits digits) (h' : IsDigits fraction) :
      IsNumeral (digits ++ '.' :: fraction)

/-- A letter, and behind it letters and digits. -/
inductive IsWord : List Char → Prop where
  | intro {first : Char} {more : List Char} (h : first.isAlpha = true)
      (h' : ∀ c ∈ more, c.isAlphanum = true) : IsWord (first :: more)

namespace Terminal

/-- The end of the input. -/
def endOfInput : Terminal :=
  ⟨.endOfInput, ""⟩

/-- The end of a line. -/
def lineEnd : Terminal :=
  ⟨.lineEnd, "\n"⟩

/-- A reserved word. -/
def keyword (keyword : Keyword) : Terminal :=
  ⟨.keyword keyword, keyword.spelling⟩

/-- An operator. -/
def operator (operator : Operator) : Terminal :=
  ⟨.operator operator, operator.spelling⟩

/-- A name. -/
def name (word : String) : Terminal :=
  ⟨.name, word⟩

/-- A number. -/
def number (digits : String) : Terminal :=
  ⟨.number, digits⟩

/-- A quoted text. -/
def quoted (text : String) : Terminal :=
  ⟨.text, text⟩

@[simp] theorem kind_endOfInput : endOfInput.kind = .endOfInput := rfl

@[simp] theorem kind_lineEnd : lineEnd.kind = .lineEnd := rfl

@[simp] theorem kind_keyword (k : Keyword) : (keyword k).kind = .keyword k := rfl

@[simp] theorem kind_operator (o : Operator) : (operator o).kind = .operator o := rfl

@[simp] theorem kind_name (word : String) : (name word).kind = .name := rfl

@[simp] theorem kind_number (digits : String) : (number digits).kind = .number := rfl

@[simp] theorem kind_quoted (text : String) : (quoted text).kind = .text := rfl

/-- The text belongs to the kind. -/
def WellFormed (terminal : Terminal) : Prop :=
  match terminal.kind with
  | .endOfInput => terminal.text = ""
  | .lineEnd => terminal.text = "\n"
  | .number => IsNumeral terminal.text.toList
  | .name => IsWord terminal.text.toList ∧ Keyword.ofSpelling? terminal.text = none
  | .text => ∀ c ∈ terminal.text.toList, Lexeme.isTextCharacter c = true
  | .keyword k => terminal.text = k.spelling
  | .operator o => terminal.text = o.spelling

/-- A well-formed terminal of one of the kinds with a single text is that terminal. -/
theorem WellFormed.eq_of_kind {terminal : Terminal} (h : terminal.WellFormed) :
    (terminal.kind = .endOfInput → terminal = .endOfInput) ∧
      (terminal.kind = .lineEnd → terminal = .lineEnd) ∧
      (∀ k, terminal.kind = .keyword k → terminal = .keyword k) ∧
      (∀ o, terminal.kind = .operator o → terminal = .operator o) := by
  obtain ⟨kind, text⟩ := terminal
  refine ⟨?_, ?_, ?_, ?_⟩
  · intro hsame
    subst hsame
    exact congrArg (Terminal.mk _) h
  · intro hsame
    subst hsame
    exact congrArg (Terminal.mk _) h
  · intro k hsame
    subst hsame
    exact congrArg (Terminal.mk _) h
  · intro o hsame
    subst hsame
    exact congrArg (Terminal.mk _) h

end Terminal

namespace Lexeme

/-- If the lexeme is a token at all, it is a well-formed one and not the end of the input. -/
def IsSound (lexeme : Lexeme) : Prop :=
  ∀ kind text, lexeme.reading = .ok (kind, text) →
    Terminal.WellFormed ⟨kind, text⟩ ∧ kind ≠ .endOfInput

/-- An accepted lexeme is sound if its text belongs to its kind. -/
theorem isSound_accept {kind : Kind} {taken rest : List Char}
    (h : Terminal.WellFormed ⟨kind, String.ofList taken⟩) (hkind : kind ≠ .endOfInput) :
    (accept kind taken rest).IsSound := by
  intro kind text hreading
  cases hreading
  exact ⟨h, hkind⟩

/-- A refused lexeme is no token. -/
theorem isSound_refuse {fault : LexicalFault} {taken rest : List Char} :
    (refuse fault taken rest).IsSound := by
  intro kind text hreading
  cases hreading

/-- What stands between two quotes is a text. -/
theorem isSound_readText (cs : List Char) : (readText cs).IsSound := by
  unfold readText
  split
  · exact isSound_refuse
  · split
    · intro kind text hreading
      cases hreading
      refine ⟨?_, by simp⟩
      show ∀ c ∈ (String.ofList (cs.takeWhile isTextCharacter)).toList, isTextCharacter c = true
      rw [String.toList_ofList]
      exact List.all_eq_true.mp List.all_takeWhile
    · exact isSound_refuse

/-- A digit and the digits behind it are digits. -/
theorem isDigits_cons_takeWhile {first : Char} (h : first.isDigit = true) (cs : List Char) :
    IsDigits (first :: cs.takeWhile Char.isDigit) := by
  refine ⟨List.cons_ne_nil _ _, ?_⟩
  intro c hc
  rcases List.mem_cons.mp hc with rfl | hc
  · exact h
  · exact List.all_eq_true.mp List.all_takeWhile c hc

/-- What is read behind a digit is a numeral. -/
theorem isSound_readNumber {first : Char} (h : first.isDigit = true) (cs : List Char) :
    (readNumber first cs).IsSound := by
  have whole := isDigits_cons_takeWhile h cs
  unfold readNumber
  split
  · next behind _ =>
    dsimp only
    split
    · exact isSound_refuse
    · next hfraction =>
      split
      · exact isSound_refuse
      · refine isSound_accept ?_ (by simp)
        show IsNumeral (String.ofList _).toList
        rw [String.toList_ofList]
        exact .decimal whole ⟨hfraction, List.all_eq_true.mp List.all_takeWhile⟩
  · refine isSound_accept ?_ (by simp)
    show IsNumeral (String.ofList _).toList
    rw [String.toList_ofList]
    exact .whole whole

/-- A word is a reserved word or a name. -/
theorem isSound_readWord {first : Char} (h : first.isAlpha = true) (cs : List Char) :
    (readWord first cs).IsSound := by
  have word : IsWord (first :: cs.takeWhile Char.isAlphanum) :=
    .intro h (List.all_eq_true.mp List.all_takeWhile)
  unfold readWord
  dsimp only
  cases reserved : Keyword.ofSpelling? (String.ofList (first :: cs.takeWhile Char.isAlphanum)) with
  | some k =>
    rw [Kind.ofWord, reserved]
    exact isSound_accept (Keyword.ofSpelling?_eq_some_iff.mp reserved).symm (by simp)
  | none =>
    rw [Kind.ofWord, reserved]
    refine isSound_accept ⟨?_, reserved⟩ (by simp)
    rw [String.toList_ofList]
    exact word

/-- An operator that can be extended is sound if both of its spellings are right. -/
theorem isSound_readExtensible {first : Char} {single double : Operator}
    (hsingle : String.ofList [first] = single.spelling)
    (hdouble : String.ofList [first, '='] = double.spelling) (cs : List Char) :
    (readExtensible first single double cs).IsSound := by
  unfold readExtensible
  split
  · exact isSound_accept hdouble (by simp)
  · exact isSound_accept hsingle (by simp)

/-- What an exclamation mark begins is sound. -/
theorem isSound_readNotEqual (cs : List Char) : (readNotEqual cs).IsSound := by
  unfold readNotEqual
  split
  · exact isSound_accept rfl (by simp)
  · exact isSound_refuse

/-- A choice between two sound lexemes is sound. -/
theorem isSound_ite {p : Prop} [Decidable p] {yes no : Lexeme} (hyes : p → yes.IsSound)
    (hno : ¬ p → no.IsSound) : (if p then yes else no).IsSound := by
  by_cases h : p
  · simpa [h] using hyes h
  · simpa [h] using hno h

/-- Every lexeme that is read is sound. -/
theorem isSound_read (c : Char) (cs : List Char) : (read c cs).IsSound := by
  unfold read
  refine isSound_ite (fun _ => isSound_accept rfl (by simp)) fun _ => ?_
  refine isSound_ite (fun _ => isSound_readText cs) fun _ => ?_
  refine isSound_ite (fun h => isSound_readNumber h cs) fun _ => ?_
  refine isSound_ite (fun h => isSound_readWord h cs) fun _ => ?_
  refine isSound_ite (fun _ => isSound_accept rfl (by simp)) fun _ => ?_
  refine isSound_ite (fun _ => isSound_accept rfl (by simp)) fun _ => ?_
  refine isSound_ite (fun _ => isSound_accept rfl (by simp)) fun _ => ?_
  refine isSound_ite (fun _ => isSound_accept rfl (by simp)) fun _ => ?_
  refine isSound_ite (fun _ => isSound_readExtensible (by decide) (by decide) cs) fun _ => ?_
  refine isSound_ite (fun _ => isSound_readExtensible (by decide) (by decide) cs) fun _ => ?_
  refine isSound_ite (fun _ => isSound_readExtensible (by decide) (by decide) cs) fun _ => ?_
  refine isSound_ite (fun _ => isSound_readNotEqual cs) fun _ => ?_
  exact isSound_refuse

end Lexeme

end BasicCompiler
