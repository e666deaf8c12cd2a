/-!
# The kinds of tokens

A token of the BASIC dialect is a word of the fixed vocabulary (`Keyword`), an operator
(`Operator`), a number, a name, a quoted text, or one of the two marks that structure a program:
the end of a line and the end of the input.

Keywords are spelled in upper case only; `Keyword.ofSpelling?` recognises exactly the spellings
(`Keyword.ofSpelling?_eq_some_iff`), so any other word is a name.
-/

namespace BasicCompiler

/-- The reserved words. Each constructor is named by its spelling. -/
inductive Keyword where
  | LABEL | GOTO | PRINT | INPUT | LET | IF | THEN | ENDIF | WHILE | REPEAT | ENDWHILE
deriving DecidableEq, Repr

namespace Keyword

/-- Every reserved word, once. -/
def all : List Keyword :=
  [LABEL, GOTO, PRINT, INPUT, LET, IF, THEN, ENDIF, WHILE, REPEAT, ENDWHILE]

/-- The one spelling of a reserved word. -/
def spelling : Keyword → String
  | LABEL => "LABEL"
  | GOTO => "GOTO"
  | PRINT => "PRINT"
  | INPUT => "INPUT"
  | LET => "LET"
  | IF => "IF"
  | THEN => "THEN"
  | ENDIF => "ENDIF"
  | WHILE => "WHILE"
  | REPEAT => "REPEAT"
  | ENDWHILE => "ENDWHILE"

/-- The reserved word with the given spelling, if there is one. -/
def ofSpelling? (word : String) : Option Keyword :=
  all.find? fun keyword => keyword.spelling = word

/-- No two reserved words are spelled alike. -/
theorem spelling_injective {a b : Keyword} (h : a.spelling = b.spelling) : a = b := by
  revert h
  cases a <;> cases b <;> decide

/-- The list `all` is complete. -/
theorem mem_all (keyword : Keyword) : keyword ∈ all := by
  cases keyword <;> decide

/-- A word is read as a reserved word exactly when it is that word's spelling. -/
theorem ofSpelling?_eq_some_iff {word : String} {keyword : Keyword} :
    ofSpelling? word = some keyword ↔ keyword.spelling = word := by
  constructor
  · intro h
    simpa using List.find?_some h
  · rintro rfl
    cases keyword <;> decide

end Keyword

/-- The operators: assignment, the four arithmetic operators, and the six comparisons. -/
inductive Operator where
  | assign | plus | minus | times | divide
  | equal | notEqual | less | lessEqual | greater | greaterEqual
deriving DecidableEq, Repr

namespace Operator

/-- How an operator is written in a program. -/
def spelling : Operator → String
  | assign => "="
  | plus => "+"
  | minus => "-"
  | times => "*"
  | divide => "/"
  | equal => "=="
  | notEqual => "!="
  | less => "<"
  | lessEqual => "<="
  | greater => ">"
  | greaterEqual => ">="

/-- The operators that compare two values. -/
def isComparison : Operator → Bool
  | equal | notEqual | less | lessEqual | greater | greaterEqual => true
  | assign | plus | minus | times | divide => false

/-- The operators that join terms; before an operand they are its sign. -/
def isAdditive : Operator → Bool
  | plus | minus => true
  | _ => false

/-- The operators that join factors. -/
def isMultiplicative : Operator → Bool
  | times | divide => true
  | _ => false

/-- The name of an operator in messages. -/
def title : Operator → String
  | assign => "EQ"
  | plus => "PLUS"
  | minus => "MINUS"
  | times => "ASTERISK"
  | divide => "SLASH"
  | equal => "EQEQ"
  | notEqual => "NOTEQ"
  | less => "LT"
  | lessEqual => "LTEQ"
  | greater => "GT"
  | greaterEqual => "GTEQ"

end Operator

/-- The kind of a token. `text` is a quoted text and `name` a word that is not reserved. -/
inductive Kind where
  | endOfInput
  | lineEnd
  | number
  | name
  | text
  | keyword (keyword : Keyword)
  | operator (operator : Operator)
deriving DecidableEq, Repr

namespace Kind

/-- The kind of a word: reserved or a name. -/
def ofWord (word : String) : Kind :=
  match Keyword.ofSpelling? word with
  | some reserved => .keyword reserved
  | none => .name

/-- The kinds of the operators that compare two values. -/
def isComparison : Kind → Bool
  | operator o => o.isComparison
  | _ => false

/-- The name of a kind in messages. -/
def title : Kind → String
  | endOfInput => "EOF"
  | lineEnd => "NEWLINE"
  | number => "NUMBER"
  | name => "IDENT"
  | text => "STRING"
  | keyword k => k.spelling
  | operator o => o.title

end Kind

end BasicCompiler
