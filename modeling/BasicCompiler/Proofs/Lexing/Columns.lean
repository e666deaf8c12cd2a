import BasicCompiler.Proofs.Lexing.Segments

/-!
# The columns of a line

Where the tokens of one line stand, and which of its columns belong to reserved words. Read
`Segment.inOrder_of_allFit` first: each token has columns of its own. `Token.keywordAt_cons` finds
the columns of reserved words token by token, from left to right.
-/

namespace BasicCompiler

/-- The kind is that of a reserved word. -/
def Kind.isKeyword : Kind → Bool
  | keyword _ => true
  | _ => false

/-- In one line only the columns are counted. -/
theorem Location.column_after (location : Location) {text : List Char} (h : '\n' ∉ text) :
    (location.after text).column = location.column + text.length := by
  induction text generalizing location with
  | nil => rfl
  | cons c text ih =>
    rw [List.mem_cons, not_or] at h
    rw [after_cons, ih _ h.2, advance, if_neg (Ne.symm h.1), List.length_cons]
    show location.column + 1 + text.length = location.column + (text.length + 1)
    omega

/-! ## Tokens -/

namespace Token

/-- The column directly behind a token of one line. -/
def endColumn (token : Token) : Nat :=
  token.location.column + token.terminal.lexeme.length

/-- The column is one of those of the token. -/
def Covers (token : Token) (column : Nat) : Prop :=
  token.location.column ≤ column ∧ column < token.endColumn

/-- One of the tokens is a number that ends directly in front of the token. -/
def BehindNumber (tokens : List Token) (token : Token) : Prop :=
  ∃ number ∈ tokens, number.kind = .number ∧ number.endColumn = token.location.column

instance (tokens : List Token) (token : Token) : Decidable (BehindNumber tokens token) :=
  inferInstanceAs (Decidable (∃ number ∈ tokens, _ ∧ _))

/-- From the column on, each token has columns of its own. -/
def InOrder : Nat → List Token → Prop
  | _, [] => True
  | column, token :: tokens =>
    column ≤ token.location.column ∧ token.location.column < token.endColumn ∧
      InOrder token.endColumn tokens

/-- The column belongs to a reserved word, and no number ends directly in front of the word. In
front of the first column a number ends or not. -/
def KeywordAt (behindNumber : Bool) (first : Nat) (tokens : List Token) (column : Nat) : Prop :=
  ∃ token ∈ tokens, token.kind.isKeyword = true ∧ token.Covers column ∧
    ¬ BehindNumber tokens token ∧ ¬ (behindNumber = true ∧ token.location.column = first)

section

variable {first column : Nat} {token : Token} {tokens : List Token}

/-- No token of a row begins in front of its first column, and none is empty. -/
theorem InOrder.bounds (h : InOrder first tokens) :
    ∀ token ∈ tokens, first ≤ token.location.column ∧ token.location.column < token.endColumn := by
  induction tokens generalizing first with
  | nil => exact List.forall_mem_nil _
  | cons token tokens ih =>
    obtain ⟨hfirst, hlength, hothers⟩ := h
    refine List.forall_mem_cons.mpr ⟨⟨hfirst, hlength⟩, fun other hother => ?_⟩
    have hbounds := ih hothers other hother
    omega

/-- A column belongs to one token at most. -/
theorem InOrder.eq_of_covers (h : InOrder first tokens) {other : Token} (htoken : token ∈ tokens)
    (hother : other ∈ tokens) (hcovers : token.Covers column) (hcovers' : other.Covers column) :
    token = other := by
  induction tokens generalizing first with
  | nil => cases htoken
  | cons head tokens ih =>
    obtain ⟨-, -, hothers⟩ := h
    unfold Covers at hcovers hcovers'
    rcases List.mem_cons.mp htoken with rfl | hmem
    · rcases List.mem_cons.mp hother with rfl | hmem'
      · rfl
      · have hbounds := hothers.bounds other hmem'
        omega
    · rcases List.mem_cons.mp hother with rfl | hmem'
      · have hbounds := hothers.bounds token hmem
        omega
      · exact ih hothers hmem hmem'

/-- The columns in front of a row are not in it. -/
theorem InOrder.not_keywordAt (h : InOrder first tokens) (hcolumn : column < first)
    (behindNumber : Bool) : ¬ KeywordAt behindNumber first tokens column := by
  rintro ⟨token, htoken, -, hcovers, -⟩
  have hbounds := h.bounds token htoken
  have hle := hcovers.1
  omega

/-- A number in a row is in front of the row's other tokens or one of them. -/
theorem behindNumber_cons {other : Token} :
    BehindNumber (token :: tokens) other ↔
      (token.kind = .number ∧ token.endColumn = other.location.column) ∨
        BehindNumber tokens other := by
  simp [BehindNumber]

/-- The columns of reserved words are those of the first token, if it is one, and those in the row
of the others. -/
theorem keywordAt_cons {behindNumber : Bool} (h : InOrder first (token :: tokens)) :
    KeywordAt behindNumber first (token :: tokens) column ↔
      (token.kind.isKeyword = true ∧ token.Covers column ∧
          ¬ (behindNumber = true ∧ token.location.column = first)) ∨
        KeywordAt (token.kind == .number) token.endColumn tokens column := by
  obtain ⟨hfirst, hlength, hothers⟩ := h
  have hself : ¬ BehindNumber (token :: tokens) token := by
    rintro ⟨number, hnumber, -, hend⟩
    rcases List.mem_cons.mp hnumber with rfl | hnumber
    · omega
    · have hbounds := hothers.bounds number hnumber
      omega
  have hother : ∀ other ∈ tokens,
      (¬ BehindNumber (token :: tokens) other ∧
          ¬ (behindNumber = true ∧ other.location.column = first)) ↔
        (¬ BehindNumber tokens other ∧
          ¬ ((token.kind == .number) = true ∧ other.location.column = token.endColumn)) := by
    intro other hmem
    have hbounds := hothers.bounds other hmem
    have hne : other.location.column ≠ first := by omega
    rw [behindNumber_cons, not_or, beq_iff_eq, eq_comm (a := token.endColumn)]
    simp only [hne, and_false, not_false_eq_true, and_true]
    exact and_comm
  constructor
  · rintro ⟨other, hmem, hkeyword, hcovers, hnumber⟩
    rcases List.mem_cons.mp hmem with rfl | hmem
    · exact .inl ⟨hkeyword, hcovers, hnumber.2⟩
    · exact .inr ⟨other, hmem, hkeyword, hcovers, (hother other hmem).mp hnumber⟩
  · rintro (⟨hkeyword, hcovers, hnumber⟩ | ⟨other, hmem, hkeyword, hcovers, hnumber⟩)
    · exact ⟨token, List.mem_cons_self, hkeyword, hcovers, hself, hnumber⟩
    · exact ⟨other, List.mem_cons_of_mem _ hmem, hkeyword, hcovers, (hother other hmem).mpr hnumber⟩

end

/-- The end of the input is neither a number nor a reserved word, so it makes no difference. -/
theorem keywordAt_endOfInput (tokens : List Token) (finish : Location) (first column : Nat) :
    KeywordAt false first tokens column ↔
      ∃ token ∈ tokens ++ [.endOfInput finish], token.kind.isKeyword = true ∧
        token.Covers column ∧ ¬ BehindNumber (tokens ++ [.endOfInput finish]) token := by
  have hnumber : ∀ token, BehindNumber (tokens ++ [.endOfInput finish]) token ↔
      BehindNumber tokens token := by
    simp [BehindNumber, Token.endOfInput]
  have hkeyword : (Token.endOfInput finish).kind.isKeyword = false := rfl
  simp [KeywordAt, hnumber, hkeyword, or_and_right, exists_or]

end Token

/-! ## Segments -/

section

variable {location : Location} {segment : Segment} {segments : List Segment} {last : List Char}

/-- If a line feed is nowhere in a row, it is neither in the first token nor in the others. -/
theorem Segment.lineFeed_notMem (h : '\n' ∉ joined (segment :: segments) last) :
    '\n' ∉ segment.token.terminal.lexeme ∧ '\n' ∉ joined segments last := by
  rw [joined_cons, List.mem_append, List.mem_append, not_or, not_or] at h
  exact h.2

/-- In one line a segment ends where its token does. -/
theorem Segment.Fits.column_eq {rest : List Char} (h : segment.Fits location rest)
    (hline : '\n' ∉ segment.token.terminal.lexeme) :
    segment.token.location.column = location.column + segment.skipped.length ∧
      (location.after segment.characters).column = segment.token.endColumn := by
  have hskipped : segment.token.location.column = location.column + segment.skipped.length := by
    rw [h.location_eq, Location.column_after _ h.gap.isSkipped.not_lineFeed]
  refine ⟨hskipped, ?_⟩
  rw [Segment.characters, Location.after_append, ← h.location_eq, Location.column_after _ hline]
  rfl

/-- The tokens of a line are in order. -/
theorem Segment.inOrder_of_allFit (hline : '\n' ∉ joined segments last)
    (hfit : AllFit location segments last) :
    Token.InOrder location.column (segments.map Segment.token) := by
  induction segments generalizing location with
  | nil => trivial
  | cons segment segments ih =>
    obtain ⟨hfirst, hothers⟩ := allFit_cons.mp hfit
    obtain ⟨hlexemeLine, hline⟩ := lineFeed_notMem hline
    obtain ⟨hcolumn, hend⟩ := hfirst.column_eq hlexemeLine
    obtain ⟨c, cs, hlexeme, -⟩ :=
      Lexeme.readsBack hfirst.wellFormed hfirst.not_endOfInput hfirst.endsBefore
    have horder := ih hline hothers
    rw [hend] at horder
    refine ⟨by omega, ?_, horder⟩
    rw [Token.endColumn, hlexeme, List.length_cons]
    omega

end

end BasicCompiler
