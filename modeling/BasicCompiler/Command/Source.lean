import BasicCompiler.Command.Directory

/-!
# The source of a command

The compiler and the viewer are both called with words, which are bytes. `Call.ofWords?` takes the
words for texts, the name of the program and its arguments. Both programs take exactly one
argument, the path of a source, and read it in the same way.
-/

namespace BasicCompiler.Command

/-- The name by which a program was called, and its arguments. -/
structure Call where
  program : String
  arguments : List String
deriving DecidableEq, Repr

/-- The call with some texts. A program that is called without any has the name `unnamed`. -/
def Call.ofTexts (unnamed : String) : List String → Call
  | [] => ⟨unnamed, []⟩
  | program :: arguments => ⟨program, arguments⟩

/-- The call with some words, all of which have to be texts in UTF-8. -/
def Call.ofWords? (unnamed : String) (words : List ByteArray) : Option Call :=
  (words.mapM String.fromUTF8?).map (Call.ofTexts unnamed)

/-- The exit status of a program that is aborted because a word of its call is no text. -/
def abortedStatus : Nat :=
  101

/-- The only argument, if there is exactly one. -/
def soleArgument? : List String → Option String
  | [argument] => some argument
  | _ => none

/-- A failure in the words of the operating system. -/
def Failure.description : Failure → String
  | isDirectory => "Os \x7b code: 21, kind: IsADirectory, message: \"Is a directory\" \x7d"
  | invalidText =>
    "Error \x7b kind: InvalidData, message: \"stream did not contain valid UTF-8\" \x7d"

/-- The line that reports a failure. -/
def Failure.report (failure : Failure) : String :=
  "Error: " ++ failure.description ++ "\n"

/-- Why there is no source. -/
inductive SourceFault where
  | missing
  | failure (failure : Failure)
deriving DecidableEq, Repr

/-- The source in what a path leads to. -/
def Found.source : Found → Except SourceFault String
  | missing => .error .missing
  | directory => .error (.failure .isDirectory)
  | file content =>
    match String.fromUTF8? content with
    | some source => .ok source
    | none => .error (.failure .invalidText)

/-- The line that reports a missing source. -/
def missingReport (path : String) : String :=
  "Error: File '" ++ path ++ "' not found\n"

/-- The line that announces the compilation of a source. -/
def announcement (path : String) : String :=
  "Compiling " ++ path ++ "...\n"

/-- The line that says how a program is called. -/
def usageLine (program : String) : String :=
  "Usage: " ++ program ++ " <file.bas>\n"

end BasicCompiler.Command
