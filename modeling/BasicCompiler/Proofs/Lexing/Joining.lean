import BasicCompiler.Proofs.Lexing.Reading

/-!
# Reading texts put together

No lexeme but a line end reaches over a line end, and no trivia do. Read `scan_append` first: where
a text ends with a line end, what is read from it and from any text behind it is what is read from
the two apart.
-/

namespace BasicCompiler

section Runs

variable {p : Char → Bool} {cs : List Char}

/-- A run of a class that the line feed is not in ends in front of the first line feed, whatever
stands behind. -/
theorem run_append (hp : p '\n' = false) (h : '\n' ∈ cs) (tail : List Char) :
    (cs ++ tail).takeWhile p = cs.takeWhile p ∧
      (cs ++ tail).dropWhile p = cs.dropWhile p ++ tail := by
  induction cs with
  | nil => cases h
  | cons c cs ih =>
    cases hc : p c with
    | false => simp [hc]
    | true =>
      have hmem : '\n' ∈ cs := by
        rcases List.mem_cons.mp h with rfl | hmem
        · rw [hp] at hc
          cases hc
        · exact hmem
      obtain ⟨htake, hdrop⟩ := ih hmem
      simp [hc, htake, hdrop]

/-- The line feed is behind the run. -/
theorem mem_dropWhile (hp : p '\n' = false) (h : '\n' ∈ cs) : '\n' ∈ cs.dropWhile p := by
  have hwhole := cs.takeWhile_append_dropWhile (p := p)
  rw [← hwhole, List.mem_append] at h
  rcases h with h | h
  · have hclass := List.all_eq_true.mp List.all_takeWhile _ h
    rw [hp] at hclass
    cases hclass
  · exact h

end Runs

/-- Trivia end in front of the first line feed. -/
theorem behindTrivia_append {cs : List Char} (h : '\n' ∈ cs) (tail : List Char) :
    behindTrivia (cs ++ tail) = behindTrivia cs ++ tail := by
  have hblank : isBlank '\n' = false := rfl
  have hmem := mem_dropWhile hblank h
  unfold behindTrivia
  rw [(run_append hblank h tail).2]
  cases hdrop : cs.dropWhile isBlank with
  | nil =>
    rw [hdrop] at hmem
    cases hmem
  | cons c rest =>
    by_cases hc : c = '#'
    · subst hc
      have hrest : '\n' ∈ rest := by simpa [hdrop] using hmem
      exact (run_append (p := fun d => d != '\n') rfl hrest tail).2
    · simp [hc]

/-- The line feed is behind the trivia. -/
theorem mem_behindTrivia {cs : List Char} (h : '\n' ∈ cs) : '\n' ∈ behindTrivia cs := by
  have hmem : '\n' ∈ cs.dropWhile isBlank := mem_dropWhile rfl h
  unfold behindTrivia
  split
  · next rest hdrop =>
    have hrest : '\n' ∈ rest := by simpa [hdrop] using hmem
    exact mem_dropWhile rfl hrest
  · exact hmem

namespace Lexeme

/-- The lexeme, with more text behind what it leaves. -/
def followedBy (lexeme : Lexeme) (tail : List Char) : Lexeme :=
  { lexeme with rest := lexeme.rest ++ tail }

variable {cs : List Char}

/-- A quoted text does not reach over a line feed. -/
theorem readText_followedBy (h : '\n' ∈ cs) (tail : List Char) :
    readText (cs ++ tail) = (readText cs).followedBy tail := by
  have hfeed : isTextCharacter '\n' = false := rfl
  have hmem := mem_dropWhile hfeed h
  obtain ⟨htake, hdrop⟩ := run_append hfeed h tail
  unfold readText
  rw [htake, hdrop]
  cases hrest : cs.dropWhile isTextCharacter with
  | nil =>
    rw [hrest] at hmem
    cases hmem
  | cons c rest =>
    dsimp only [List.cons_append]
    split
    · rfl
    · rfl

/-- A number does not reach over a line feed. -/
theorem readNumber_followedBy (first : Char) (h : '\n' ∈ cs) (tail : List Char) :
    readNumber first (cs ++ tail) = (readNumber first cs).followedBy tail := by
  have hfeed : Char.isDigit '\n' = false := rfl
  have hmem := mem_dropWhile hfeed h
  obtain ⟨htake, hdrop⟩ := run_append hfeed h tail
  unfold readNumber
  rw [htake, hdrop]
  cases hrest : cs.dropWhile Char.isDigit with
  | nil =>
    rw [hrest] at hmem
    cases hmem
  | cons c behind =>
    by_cases hc : c = '.'
    · subst hc
      have hbehind : '\n' ∈ behind := by simpa [hrest] using hmem
      have hmem' := mem_dropWhile hfeed hbehind
      obtain ⟨htake', hdrop'⟩ := run_append hfeed hbehind tail
      simp only [List.cons_append, htake', hdrop']
      split
      · rfl
      · cases hrest' : behind.dropWhile Char.isDigit with
        | nil =>
          rw [hrest'] at hmem'
          cases hmem'
        | cons d more =>
          by_cases hd : d = '.'
          · subst hd
            have hmore : '\n' ∈ more := by simpa [hrest'] using hmem'
            obtain ⟨htake'', hdrop''⟩ := run_append hfeed hmore tail
            simp only [List.cons_append, htake'', hdrop'']
            rfl
          · simp [hd, followedBy, accept]
    · simp [hc, followedBy, accept]

/-- A word does not reach over a line feed. -/
theorem readWord_followedBy (first : Char) (h : '\n' ∈ cs) (tail : List Char) :
    readWord first (cs ++ tail) = (readWord first cs).followedBy tail := by
  have hfeed : Char.isAlphanum '\n' = false := rfl
  obtain ⟨htake, hdrop⟩ := run_append hfeed h tail
  rw [readWord, htake, hdrop]
  rfl

/-- An operator does not reach over a line feed. -/
theorem readExtensible_followedBy (first : Char) (single double : Operator) (h : '\n' ∈ cs)
    (tail : List Char) :
    readExtensible first single double (cs ++ tail) =
      (readExtensible first single double cs).followedBy tail := by
  cases cs with
  | nil => cases h
  | cons c cs =>
    by_cases hc : c = '='
    · subst hc
      rfl
    · simp [readExtensible, hc, followedBy, accept]

/-- What an exclamation mark begins does not reach over a line feed. -/
theorem readNotEqual_followedBy (h : '\n' ∈ cs) (tail : List Char) :
    readNotEqual (cs ++ tail) = (readNotEqual cs).followedBy tail := by
  cases cs with
  | nil => cases h
  | cons c cs =>
    by_cases hc : c = '='
    · subst hc
      rfl
    · simp [readNotEqual, hc, followedBy, refuse]

/-- A choice between two lexemes that can both be followed by more text. -/
theorem ite_followedBy {p : Prop} [Decidable p] {yes no yes' no' : Lexeme} {tail : List Char}
    (hyes : yes = yes'.followedBy tail) (hno : no = no'.followedBy tail) :
    (if p then yes else no) = (if p then yes' else no').followedBy tail := by
  split
  · exact hyes
  · exact hno

/-- No lexeme but a line end reaches over a line feed. -/
theorem read_followedBy (c : Char) (h : '\n' ∈ cs) (tail : List Char) :
    read c (cs ++ tail) = (read c cs).followedBy tail := by
  unfold read
  refine ite_followedBy rfl ?_
  refine ite_followedBy (readText_followedBy h tail) ?_
  refine ite_followedBy (readNumber_followedBy c h tail) ?_
  refine ite_followedBy (readWord_followedBy c h tail) ?_
  refine ite_followedBy rfl ?_
  refine ite_followedBy rfl ?_
  refine ite_followedBy rfl ?_
  refine ite_followedBy rfl ?_
  refine ite_followedBy (readExtensible_followedBy _ _ _ h tail) ?_
  refine ite_followedBy (readExtensible_followedBy _ _ _ h tail) ?_
  refine ite_followedBy (readExtensible_followedBy _ _ _ h tail) ?_
  refine ite_followedBy (readNotEqual_followedBy h tail) ?_
  rfl

end Lexeme

/-- The text is empty or its last character is a line feed. -/
def EndsLine (cs : List Char) : Prop :=
  ∀ c, cs.getLast? = some c → c = '\n'

/-- What is left of a text that ends with a line feed ends with it, or is empty. -/
theorem EndsLine.of_append {front rest : List Char} (h : EndsLine (front ++ rest)) :
    EndsLine rest := by
  intro c hc
  apply h
  rw [List.getLast?_append, hc]
  rfl

/-- A text that ends with a line feed holds one. -/
theorem EndsLine.mem {c : Char} {cs : List Char} (h : EndsLine (c :: cs)) : '\n' ∈ c :: cs := by
  have hlast : (c :: cs).getLast? = some ((c :: cs).getLast (List.cons_ne_nil c cs)) :=
    List.getLast?_eq_some_getLast _
  rw [← h _ hlast]
  exact List.getLast_mem _

/-- Behind a text that ends with a line feed, reading starts afresh. -/
theorem scan_append {cs : List Char} (h : EndsLine cs) (tail : List Char) :
    scan (cs ++ tail) = scan cs ++ scan tail := by
  fun_induction scan cs with
  | case1 cs text =>
    cases cs with
    | nil => rfl
    | cons c cs =>
      have hmem := mem_behindTrivia h.mem
      rw [text] at hmem
      cases hmem
  | case2 cs c more text ih =>
    cases cs with
    | nil => cases text
    | cons first cs =>
      have hwhole := trivia_append_behindTrivia (first :: cs)
      rw [text] at hwhole
      have hends : EndsLine (c :: more) := by
        rw [← hwhole] at h
        exact h.of_append
      have htext : behindTrivia (first :: cs ++ tail) = c :: (more ++ tail) := by
        rw [behindTrivia_append h.mem, text]
        rfl
      have hrest : EndsLine (Lexeme.read c more).rest := by
        have hcovers := (Lexeme.covers_read c more).taken_append_rest
        rw [← hcovers] at hends
        exact hends.of_append
      have hread : Lexeme.read c (more ++ tail) = (Lexeme.read c more).followedBy tail := by
        rcases List.mem_cons.mp hends.mem with rfl | hmem
        · rfl
        · exact Lexeme.read_followedBy c hmem tail
      rw [scan_of_eq_cons htext, hread]
      exact congrArg _ (ih hrest)

end BasicCompiler
