import BasicCompiler.Command.Source
import BasicCompiler.Viewer.Basic

/-!
# The viewer command

The command reads the source that its one argument names and opens the viewer on it, also when the
source does not compile. Only without a source there is nothing to show. As for the compiler, the
process is aborted before the command begins if a word of the call is no text.
-/

namespace BasicCompiler.Command.ViewCommand

/-- What is said to a wrong number of arguments. -/
def usage (program : String) : String :=
  "Error: viewer needs exactly one source file as argument\n\n" ++ usageLine program ++
    "\nTry one of the bundled demos:\n  " ++ program ++ " demos/fib.bas\n"

/-- How the command goes on: it fails, or the viewer takes over the terminal. -/
inductive Opening where
  | failed (messages : String)
  | opened (messages : String) (viewer : Viewer)

/-- What is said before the viewer takes over. -/
def result (viewer : Viewer) : String :=
  match viewer.diagnostic? with
  | some diagnostic => "Compile error: " ++ diagnostic.message ++ "\n"
  | none => "Compiled successfully.\n"

/-- Open the viewer on the path, which leads to `found`. -/
def openViewer (path : String) (found : Found) : Opening :=
  match found.source with
  | .error .missing => .failed (missingReport path)
  | .error (.failure failure) => .failed failure.report
  | .ok source =>
    let viewer := Viewer.ofSource source
    .opened (announcement path ++ result viewer) viewer

/-- The command with the given arguments in a directory. -/
def run (program : String) (arguments : List String) (directory : Directory) : Opening :=
  match soleArgument? arguments with
  | none => .failed (usage program)
  | some path => openViewer path (directory.find path)

/-- The process that is started with the given words, the name of the program in front, in a
directory. Nothing comes of it if it is aborted. -/
def call? (words : List ByteArray) (directory : Directory) : Option Opening :=
  (Call.ofWords? "tinybasc-view" words).map fun call => run call.program call.arguments directory

end BasicCompiler.Command.ViewCommand
