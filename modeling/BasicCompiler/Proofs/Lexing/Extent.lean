import BasicCompiler.Proofs.Lexing.Printing

/-!
# How far a lexeme reaches

Where a token is read, the characters taken are the ones that the token is written with, and the
character behind them would not have extended it. Read `Lexeme.isExact_read` first: together with
`Lexeme.readsBack` it says that a lexeme is the longest one at its place.
-/

namespace BasicCompiler

/-- The first character that a run of a class leaves is not of the class. -/
theorem boundary_dropWhile {α : Type} (p : α → Bool) (cs : List α) :
    ∀ c, (cs.dropWhile p).head? = some c → p c = false := by
  intro c hc
  have hstop := List.head?_dropWhile_not p cs
  rw [hc] at hstop
  simpa using hstop

namespace Lexeme

/-- If the lexeme is a token, what is taken are the characters of the token, and what is left does
not begin with a character that extends it. -/
def IsExact (lexeme : Lexeme) : Prop :=
  ∀ kind text, lexeme.reading = .ok (kind, text) →
    lexeme.taken = Terminal.lexeme ⟨kind, text⟩ ∧ Terminal.EndsBefore ⟨kind, text⟩ lexeme.rest

/-- An accepted lexeme is exact if nothing extends it; only a quoted text is written with more
characters than its own. -/
theorem isExact_accept {kind : Kind} {taken rest : List Char} (hkind : kind ≠ .text)
    (h : Terminal.EndsBefore ⟨kind, String.ofList taken⟩ rest) :
    (accept kind taken rest).IsExact := by
  intro kind' text hreading
  cases hreading
  refine ⟨?_, h⟩
  show taken = Terminal.lexeme ⟨kind, String.ofList taken⟩
  unfold Terminal.lexeme
  split
  · next hsame => exact absurd hsame hkind
  · exact String.toList_ofList.symm

/-- A refused lexeme is no token. -/
theorem isExact_refuse {fault : LexicalFault} {taken rest : List Char} :
    (refuse fault taken rest).IsExact := by
  intro kind text hreading
  cases hreading

/-- Nothing extends a token of a kind with a fixed end. -/
theorem endsBefore_of_forall {terminal : Terminal} (h : ∀ c, terminal.extendedBy c = false)
    (rest : List Char) : terminal.EndsBefore rest :=
  fun c _ => h c

/-- A quoted text ends with its closing quote. -/
theorem isExact_readText (cs : List Char) : (readText cs).IsExact := by
  unfold readText
  split
  · exact isExact_refuse
  · split
    · intro kind text hreading
      cases hreading
      refine ⟨?_, endsBefore_of_forall (fun _ => rfl) _⟩
      simp [Terminal.lexeme]
    · exact isExact_refuse

/-- A number ends in front of a character that is neither a digit nor a point. -/
theorem endsBefore_number {digits : String} {rest : List Char}
    (hdigit : ∀ c, rest.head? = some c → c.isDigit = false)
    (hpoint : ∀ more, rest ≠ '.' :: more) : (Terminal.number digits).EndsBefore rest := by
  intro c hc
  have hne : c ≠ '.' := by
    intro hsame
    subst hsame
    obtain ⟨more, rfl⟩ := List.head?_eq_some_iff.mp hc
    exact hpoint more rfl
  simp [Terminal.extendedBy, Terminal.number, hdigit c hc, hne]

/-- A number is exact. -/
theorem isExact_readNumber (first : Char) (cs : List Char) : (readNumber first cs).IsExact := by
  unfold readNumber
  split
  · next behind _ =>
    dsimp only
    split
    · exact isExact_refuse
    · split
      · exact isExact_refuse
      · next hpoint =>
        exact isExact_accept (by simp) (endsBefore_number (boundary_dropWhile _ _) hpoint)
  · next hpoint =>
    exact isExact_accept (by simp) (endsBefore_number (boundary_dropWhile _ _) hpoint)

/-- A word is exact. -/
theorem isExact_readWord (first : Char) (cs : List Char) : (readWord first cs).IsExact := by
  unfold readWord
  dsimp only
  generalize String.ofList (first :: cs.takeWhile Char.isAlphanum) = word
  unfold Kind.ofWord
  split
  · exact isExact_accept (by simp) (boundary_dropWhile _ _)
  · exact isExact_accept (by simp) (boundary_dropWhile _ _)

/-- An operator that can be extended is exact: it takes an equals sign if there is one, and its
longer form cannot be extended. -/
theorem isExact_readExtensible {first : Char} {single double : Operator}
    (hdouble : ∀ c text, Terminal.extendedBy ⟨.operator double, text⟩ c = false)
    (hsingle : ∀ c text, c ≠ '=' → Terminal.extendedBy ⟨.operator single, text⟩ c = false)
    (cs : List Char) : (readExtensible first single double cs).IsExact := by
  unfold readExtensible
  split
  · exact isExact_accept (by simp) (endsBefore_of_forall (fun c => hdouble c _) _)
  · next hequals =>
    refine isExact_accept (by simp) fun c hc => hsingle c _ ?_
    intro hsame
    subst hsame
    obtain ⟨rest, hrest⟩ := List.head?_eq_some_iff.mp hc
    exact hequals rest hrest

/-- What an exclamation mark begins is exact. -/
theorem isExact_readNotEqual (cs : List Char) : (readNotEqual cs).IsExact := by
  unfold readNotEqual
  split
  · exact isExact_accept (by simp) (endsBefore_of_forall (fun _ => rfl) _)
  · exact isExact_refuse

/-- A choice between two exact lexemes is exact. -/
theorem isExact_ite {p : Prop} [Decidable p] {yes no : Lexeme} (hyes : yes.IsExact)
    (hno : no.IsExact) : (if p then yes else no).IsExact := by
  split
  · exact hyes
  · exact hno

/-- Every lexeme that is read is exact. -/
theorem isExact_read (c : Char) (cs : List Char) : (read c cs).IsExact := by
  have hfixed : ∀ kind taken rest, kind ≠ .text →
      (∀ d, Terminal.extendedBy ⟨kind, String.ofList taken⟩ d = false) →
      (accept kind taken rest).IsExact :=
    fun _ _ rest hkind h => isExact_accept hkind (endsBefore_of_forall h rest)
  have hequals : ∀ single double : Operator,
      (∀ d text, Terminal.extendedBy ⟨.operator double, text⟩ d = false) →
      ∀ first, (readExtensible first single double cs).IsExact :=
    fun single double hdouble first =>
      isExact_readExtensible hdouble (fun d text hd => by simp [Terminal.extendedBy, hd]) cs
  unfold read
  refine isExact_ite (hfixed _ _ _ (by simp) fun _ => rfl) ?_
  refine isExact_ite (isExact_readText cs) ?_
  refine isExact_ite (isExact_readNumber c cs) ?_
  refine isExact_ite (isExact_readWord c cs) ?_
  refine isExact_ite (hfixed _ _ _ (by simp) fun _ => rfl) ?_
  refine isExact_ite (hfixed _ _ _ (by simp) fun _ => rfl) ?_
  refine isExact_ite (hfixed _ _ _ (by simp) fun _ => rfl) ?_
  refine isExact_ite (hfixed _ _ _ (by simp) fun _ => rfl) ?_
  refine isExact_ite (hequals _ _ (fun _ _ => rfl) _) ?_
  refine isExact_ite (hequals _ _ (fun _ _ => rfl) _) ?_
  refine isExact_ite (hequals _ _ (fun _ _ => rfl) _) ?_
  refine isExact_ite (isExact_readNotEqual cs) ?_
  exact isExact_refuse

end Lexeme

end BasicCompiler
