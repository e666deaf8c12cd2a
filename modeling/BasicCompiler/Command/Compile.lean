import BasicCompiler.Command.Source
import BasicCompiler.Compiler.Basic
import BasicCompiler.Text.Lines

/-!
# The compiler command

The command compiles the source that its one argument names and writes the result to a file of a
fixed name in the working directory. `CompileCommand.plan` decides everything from what the path
leads to; the file is touched only if the source compiles. `CompileCommand.run` is the whole
command in a working directory, and `CompileCommand.call` the process, which is aborted before the
command begins if a word of the call is no text.
-/

namespace BasicCompiler.Command.CompileCommand

/-- The file that receives the result. -/
def outputName : String :=
  "out.c"

/-- What is said to a wrong number of arguments. -/
def usage (program : String) : String :=
  "Error: compiler needs exactly one source file as argument\n\n" ++ usageLine program ++
    "\nThe C translation is written to ./" ++ outputName ++ "\n"

/-- What remains to be done once the source has been looked up. -/
inductive Plan where
  /-- Say this and fail. -/
  | fail (messages : String)
  /-- Say this and write the result. -/
  | write (messages : String) (result : String)
deriving DecidableEq, Repr

/-- What to do about the path, which leads to `found`. -/
def plan (program path : String) (found : Found) : Plan :=
  match found.source with
  | .error .missing => .fail (missingReport path ++ usageLine program)
  | .error (.failure failure) => .fail failure.report
  | .ok source =>
    match compile source with
    | .error diagnostic => .fail (announcement path ++ "Error: " ++ diagnostic.message ++ "\n")
    | .ok result => .write (announcement path) result

/-- What is said when the result has been written. -/
def success (result : String) : String :=
  "Compiled successfully. Wrote " ++ toString (Text.lines result).length ++
    " lines to " ++ outputName ++ ".\n"

/-- The end of a command: its exit status, what it said, and the directory it left. -/
structure Ending where
  status : Nat
  messages : String
  directory : Directory

/-- Carry out a plan in a directory. -/
def Plan.execute (directory : Directory) : Plan → Ending
  | fail messages => ⟨1, messages, directory⟩
  | write messages result =>
    match directory.writeFile outputName result.toUTF8 with
    | .error failure => ⟨1, messages ++ failure.report, directory⟩
    | .ok written => ⟨0, messages ++ success result, written⟩

/-- The command with the given arguments in a directory. -/
def run (program : String) (arguments : List String) (directory : Directory) : Ending :=
  match soleArgument? arguments with
  | none => ⟨1, usage program, directory⟩
  | some path => (plan program path (directory.find path)).execute directory

/-- How the process of the command ends. -/
inductive Exit where
  /-- The command came to its end. -/
  | ended (ending : Ending)
  /-- The process was aborted in this directory. -/
  | aborted (directory : Directory)

namespace Exit

/-- The exit status of the process. -/
def status : Exit → Nat
  | ended ending => ending.status
  | aborted _ => abortedStatus

/-- The directory that the process left. -/
def directory : Exit → Directory
  | ended ending => ending.directory
  | aborted directory => directory

end Exit

/-- The process that is started with the given words, the name of the program in front, in a
directory. -/
def call (words : List ByteArray) (directory : Directory) : Exit :=
  match Call.ofWords? "tinybasc" words with
  | none => .aborted directory
  | some call => .ended (run call.program call.arguments directory)

end BasicCompiler.Command.CompileCommand
