import BasicCompiler.Diagnostic

/-!
# Lexemes

A lexeme is the stretch of characters that one token, or one lexical fault, covers.
`Lexeme.read` reads the lexeme at the beginning of a text that starts with neither a blank nor a
comment: the longest stretch of its class. Read `Lexeme.covers_read` first: something is
taken, and what is taken and what is left are together the text, so that no character is lost or
read twice.
-/

namespace BasicCompiler

/-- The outcome of reading at the beginning of a lexeme: the characters `taken`, the `rest` behind
them, and the token they form or the fault that keeps them from forming one. -/
structure Lexeme where
  taken : List Char
  rest : List Char
  reading : Except LexicalFault (Kind × String)

namespace Lexeme

/-- The lexeme of a token whose text is all of the characters taken. -/
def accept (kind : Kind) (taken rest : List Char) : Lexeme :=
  ⟨taken, rest, .ok (kind, String.ofList taken)⟩

/-- The lexeme of a fault. -/
def refuse (fault : LexicalFault) (taken rest : List Char) : Lexeme :=
  ⟨taken, rest, .error fault⟩

/-- The characters a quoted text can hold: all but its closing quote, the line ends, the tab, and
the two characters with a meaning of their own in a C format. -/
def isTextCharacter (c : Char) : Bool :=
  !(c == '"' || c == '\r' || c == '\n' || c == '\t' || c == '\\' || c == '%')

/-- Read a quoted text behind its opening quote. A character that cannot stand in it is not taken:
reading goes on at that character. -/
def readText (cs : List Char) : Lexeme :=
  let body := cs.takeWhile isTextCharacter
  match cs.dropWhile isTextCharacter with
  | [] => refuse .unterminatedText ('"' :: body) []
  | c :: rest =>
    if c = '"' then ⟨'"' :: body ++ ['"'], rest, .ok (.text, String.ofList body)⟩
    else refuse (.illegalInText c) ('"' :: body) (c :: rest)

/-- Read a number whose first digit is `first`: digits and, behind a point, more digits. A point
without a digit behind it and a second point are faults, which take what they have read. -/
def readNumber (first : Char) (cs : List Char) : Lexeme :=
  let whole := first :: cs.takeWhile Char.isDigit
  match cs.dropWhile Char.isDigit with
  | '.' :: behind =>
    let fraction := behind.takeWhile Char.isDigit
    if fraction = [] then
      refuse (.malformedNumber (whole ++ ['.'])) (whole ++ ['.']) behind
    else
      match behind.dropWhile Char.isDigit with
      | '.' :: more =>
        let characters := whole ++ '.' :: fraction ++ '.' :: more.takeWhile Char.isDigit
        refuse (.malformedNumber characters) characters (more.dropWhile Char.isDigit)
      | rest => accept .number (whole ++ '.' :: fraction) rest
  | rest => accept .number whole rest

/-- Read a word whose first letter is `first`: letters and digits. -/
def readWord (first : Char) (cs : List Char) : Lexeme :=
  let word := first :: cs.takeWhile Char.isAlphanum
  accept (.ofWord (String.ofList word)) word (cs.dropWhile Char.isAlphanum)

/-- Read an operator that an equals sign directly behind its first character would change. -/
def readExtensible (first : Char) (single double : Operator) (cs : List Char) : Lexeme :=
  match cs with
  | '=' :: rest => accept (.operator double) [first, '='] rest
  | _ => accept (.operator single) [first] cs

/-- Read the operator that begins with an exclamation mark. -/
def readNotEqual (cs : List Char) : Lexeme :=
  match cs with
  | '=' :: rest => accept (.operator .notEqual) ['!', '='] rest
  | _ => refuse .loneExclamation ['!'] cs

/-- Read the lexeme at the beginning of the text that consists of `c` and `cs`. -/
def read (c : Char) (cs : List Char) : Lexeme :=
  if c = '\n' then accept .lineEnd ['\n'] cs
  else if c = '"' then readText cs
  else if c.isDigit then readNumber c cs
  else if c.isAlpha then readWord c cs
  else if c = '+' then accept (.operator .plus) ['+'] cs
  else if c = '-' then accept (.operator .minus) ['-'] cs
  else if c = '*' then accept (.operator .times) ['*'] cs
  else if c = '/' then accept (.operator .divide) ['/'] cs
  else if c = '=' then readExtensible '=' .assign .equal cs
  else if c = '<' then readExtensible '<' .less .lessEqual cs
  else if c = '>' then readExtensible '>' .greater .greaterEqual cs
  else if c = '!' then readNotEqual cs
  else refuse (.unexpectedCharacter c) [c] cs

/-- Where a fault of a lexeme is placed: a character that cannot stand in a quoted text at that
character, which is the one behind what was taken, and any other fault where the lexeme begins. -/
def faultLocation (fault : LexicalFault) (start finish : Location) : Location :=
  match fault with
  | .illegalInText _ => finish
  | _ => start

/-- The token or the diagnostic for a lexeme that begins at `start`. -/
def result (lexeme : Lexeme) (start : Location) : Except Diagnostic Token :=
  match lexeme.reading with
  | .ok (kind, text) => .ok ⟨kind, text, start⟩
  | .error fault => .error (.lexical fault (faultLocation fault start (start.after lexeme.taken)))

/-! ## Reading loses nothing -/

/-- The lexeme takes at least one character of the text, and what it takes and what it leaves are
together the text. -/
structure Covers (lexeme : Lexeme) (text : List Char) : Prop where
  taken_ne_nil : lexeme.taken ≠ []
  taken_append_rest : lexeme.taken ++ lexeme.rest = text

/-- What a lexeme leaves is shorter than the text it covers. -/
theorem Covers.length_rest_lt {lexeme : Lexeme} {text : List Char} (h : lexeme.Covers text) :
    lexeme.rest.length < text.length := by
  have taken := List.length_pos_iff.mpr h.taken_ne_nil
  have whole := congrArg List.length h.taken_append_rest
  rw [List.length_append] at whole
  omega

/-- An accepted first character covers the text it begins. -/
theorem covers_accept {kind : Kind} {c : Char} {taken rest text : List Char}
    (h : c :: taken ++ rest = text) : (accept kind (c :: taken) rest).Covers text :=
  ⟨List.cons_ne_nil _ _, h⟩

/-- A refused first character covers the text it begins. -/
theorem covers_refuse {fault : LexicalFault} {c : Char} {taken rest text : List Char}
    (h : c :: taken ++ rest = text) : (refuse fault (c :: taken) rest).Covers text :=
  ⟨List.cons_ne_nil _ _, h⟩

/-- A quoted text covers the text behind the opening quote, and the quote. -/
theorem covers_readText (cs : List Char) : (readText cs).Covers ('"' :: cs) := by
  have whole := cs.takeWhile_append_dropWhile (p := isTextCharacter)
  unfold readText
  split
  next h =>
    exact covers_refuse (by simpa [h] using whole)
  next c rest h =>
    rw [h] at whole
    split
    next hc =>
      subst hc
      exact ⟨List.cons_ne_nil _ _, by simp [whole]⟩
    next => exact covers_refuse (by simp [whole])

/-- A number covers the text it begins. -/
theorem covers_readNumber (first : Char) (cs : List Char) :
    (readNumber first cs).Covers (first :: cs) := by
  have whole := cs.takeWhile_append_dropWhile (p := Char.isDigit)
  unfold readNumber
  split
  next behind h =>
    have inner := behind.takeWhile_append_dropWhile (p := Char.isDigit)
    rw [h] at whole
    dsimp only
    split
    next => exact covers_refuse (by simp [whole])
    next =>
      split
      next more h' =>
        rw [h'] at inner
        exact covers_refuse (by simp [inner, whole])
      next => exact covers_accept (by simp [inner, whole])
  next => exact covers_accept (by simp [whole])

/-- A word covers the text it begins. -/
theorem covers_readWord (first : Char) (cs : List Char) :
    (readWord first cs).Covers (first :: cs) :=
  covers_accept (by simp)

/-- An operator that can be extended covers the text it begins. -/
theorem covers_readExtensible (first : Char) (single double : Operator) (cs : List Char) :
    (readExtensible first single double cs).Covers (first :: cs) := by
  unfold readExtensible
  split
  next => exact covers_accept (by simp)
  next => exact covers_accept (by simp)

/-- What an exclamation mark begins covers the text. -/
theorem covers_readNotEqual (cs : List Char) : (readNotEqual cs).Covers ('!' :: cs) := by
  unfold readNotEqual
  split
  next => exact covers_accept (by simp)
  next => exact covers_refuse (by simp)

/-- A choice between two lexemes covers what both cover. -/
theorem covers_ite {p : Prop} [Decidable p] {yes no : Lexeme} {text : List Char}
    (hyes : p → yes.Covers text) (hno : no.Covers text) :
    (if p then yes else no).Covers text := by
  by_cases h : p
  · simpa [h] using hyes h
  · simpa [h] using hno

/-- Every lexeme covers the text it is read from. -/
theorem covers_read (c : Char) (cs : List Char) : (read c cs).Covers (c :: cs) := by
  unfold read
  refine covers_ite (fun h => h ▸ covers_accept rfl) ?_
  refine covers_ite (fun h => h ▸ covers_readText cs) ?_
  refine covers_ite (fun _ => covers_readNumber c cs) ?_
  refine covers_ite (fun _ => covers_readWord c cs) ?_
  refine covers_ite (fun h => h ▸ covers_accept rfl) ?_
  refine covers_ite (fun h => h ▸ covers_accept rfl) ?_
  refine covers_ite (fun h => h ▸ covers_accept rfl) ?_
  refine covers_ite (fun h => h ▸ covers_accept rfl) ?_
  refine covers_ite (fun h => h ▸ covers_readExtensible _ _ _ cs) ?_
  refine covers_ite (fun h => h ▸ covers_readExtensible _ _ _ cs) ?_
  refine covers_ite (fun h => h ▸ covers_readExtensible _ _ _ cs) ?_
  refine covers_ite (fun h => h ▸ covers_readNotEqual cs) ?_
  exact covers_refuse rfl

end Lexeme

end BasicCompiler
