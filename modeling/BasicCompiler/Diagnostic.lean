import BasicCompiler.Text.Escaped
import BasicCompiler.Text.WhiteSpace
import BasicCompiler.Token.Basic

/-!
# Diagnostics

Everything that can be wrong with a program, as a cause and a place. A cause is lexical (the
characters form no token), syntactic (the tokens form no program) or semantic (the program uses a
name in a way its declarations do not allow). `Diagnostic.message` is the one place where a
diagnostic is put into words.
-/

namespace BasicCompiler

/-- The three families of diagnostics. -/
inductive Category where
  | lexical | syntactic | semantic
deriving DecidableEq, Repr

namespace Category

/-- How a message names the family. -/
def title : Category → String
  | lexical => "Lexical error"
  | syntactic => "Syntax error"
  | semantic => "Semantic error"

/-- The message for a fault of this family. A lexical fault is placed to the character, the others
to the line. -/
def report (category : Category) (location : Location) (detail : String) : String :=
  let place :=
    match category with
    | lexical => " at line " ++ toString location.line ++ ", column " ++ toString location.column
    | syntactic | semantic => " at line " ++ toString location.line
  category.title ++ place ++ ": " ++ detail

end Category

/-- Why the characters at some place form no token. -/
inductive LexicalFault where
  /-- No token begins with this character. -/
  | unexpectedCharacter (c : Char)
  /-- An exclamation mark begins only the operator "not equal". -/
  | loneExclamation
  /-- A quoted text cannot hold this character. -/
  | illegalInText (c : Char)
  /-- The input ends inside a quoted text. -/
  | unterminatedText
  /-- A point in a number has no digit behind it, or is the number's second one. -/
  | malformedNumber (characters : List Char)
deriving DecidableEq, Repr

namespace LexicalFault

/-- The fault in words. -/
def detail : LexicalFault → String
  | unexpectedCharacter c => "Unexpected character: '" ++ Text.escaped c ++ "'"
  | loneExclamation => "Expected '!=', got '!'"
  | illegalInText c => "Illegal character in string: '" ++ Text.escaped c ++ "'"
  | unterminatedText => "Unterminated string literal"
  | malformedNumber characters => "Malformed number: '" ++ String.ofList characters ++ "'"

end LexicalFault

/-- Why a token cannot stand where it stands, when no single kind was required there. -/
inductive GrammarFault where
  /-- A statement had to begin. The hint is given when an assignment seems to lack its LET. -/
  | noStatement (assignmentHint : Bool)
  /-- A comparison operator had to stand here. -/
  | noComparison
  /-- A number or a variable had to stand here. -/
  | noOperand
deriving DecidableEq, Repr

namespace GrammarFault

/-- The fault in words, at a token of the given kind and text. -/
def detail (fault : GrammarFault) (kind : Kind) (text : String) : String :=
  let quoted := "'" ++ Text.trim text ++ "' (" ++ kind.title ++ ")"
  match fault with
  | noStatement hint =>
    "Invalid statement at " ++ quoted ++ (if hint then "; assignments start with LET" else "")
  | noComparison => "Expected comparison operator at: " ++ quoted
  | noOperand => "Unexpected token at " ++ quoted ++ ", expected a number or variable"

end GrammarFault

/-- What is wrong with a program, and where. -/
inductive Diagnostic where
  /-- The characters form no token. -/
  | lexical (fault : LexicalFault) (location : Location)
  /-- A token of one kind was required and another one stands there. -/
  | unexpectedToken (expected found : Kind) (text : String) (location : Location)
  /-- A token stands where none of its kind can. -/
  | misplacedToken (fault : GrammarFault) (kind : Kind) (text : String) (location : Location)
  /-- A variable is read before any statement gave it a value. -/
  | undeclaredVariable (name : String) (location : Location)
  /-- A label is declared a second time. -/
  | duplicateLabel (name : String) (location : Location)
  /-- A jump has a label that is declared nowhere. -/
  | undeclaredLabel (name : String) (location : Location)
deriving DecidableEq, Repr

namespace Diagnostic

/-- The family a diagnostic belongs to. -/
def category : Diagnostic → Category
  | lexical .. => .lexical
  | unexpectedToken .. | misplacedToken .. => .syntactic
  | undeclaredVariable .. | duplicateLabel .. | undeclaredLabel .. => .semantic

/-- The place a diagnostic points at. -/
def location : Diagnostic → Location
  | lexical _ location => location
  | unexpectedToken _ _ _ location => location
  | misplacedToken _ _ _ location => location
  | undeclaredVariable _ location => location
  | duplicateLabel _ location => location
  | undeclaredLabel _ location => location

/-- How an unexpected token is shown: by its kind, and by its text where that can be seen. -/
def shown (kind : Kind) (text : String) : String :=
  match kind with
  | .lineEnd | .endOfInput => kind.title
  | _ => kind.title ++ " '" ++ text ++ "'"

/-- The fault in words, without its family and place. -/
def detail : Diagnostic → String
  | lexical fault _ => fault.detail
  | unexpectedToken expected found text _ =>
    "expected " ++ expected.title ++ ", found " ++ shown found text
  | misplacedToken fault kind text _ => fault.detail kind text
  | undeclaredVariable name _ => "variable '" ++ name ++ "' referenced before assignment"
  | duplicateLabel name _ => "label '" ++ name ++ "' already exists"
  | undeclaredLabel name _ => "GOTO to undeclared label '" ++ name ++ "'"

/-- The full message: family, place and detail. -/
def message (diagnostic : Diagnostic) : String :=
  diagnostic.category.report diagnostic.location diagnostic.detail

end Diagnostic

end BasicCompiler
