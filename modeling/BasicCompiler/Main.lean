import BasicCompiler.Command.Compile

/-!
# The command line

The compiler as a program: what `CompileCommand` decides, carried out on the files of the machine.
-/

namespace BasicCompiler.Command.CommandLine

/-- The code with which the machine reports a directory in the place of a file. -/
def directoryCode : UInt32 :=
  21

/-- What a path leads to in the file system. A path that goes on behind a file leads nowhere. -/
def lookUp (path : String) : IO Found := do
  try
    return .file (← IO.FS.readBinFile path)
  catch
    | .noFileOrDirectory .. => return .missing
    | .inappropriateType _ code _ =>
      return if code = directoryCode then .directory else .missing
    | failure => throw failure

/-- Write the result; a directory in its place is a failure of the command. -/
def writeResult (result : String) : IO (Except Failure Unit) := do
  try
    IO.FS.writeBinFile CompileCommand.outputName result.toUTF8
    return .ok ()
  catch
    | .inappropriateType .. => return .error .isDirectory
    | failure => throw failure

/-- Say how the command ended. -/
def conclude (status : UInt32) (messages : String) : IO UInt32 := do
  (← IO.getStderr).putStr messages
  return status

/-- Compile the source named by the one argument. -/
def compileSource (arguments : List String) : IO UInt32 := do
  let program := ((← IO.appPath).fileName).getD "compiler"
  match soleArgument? arguments with
  | none => conclude 1 (CompileCommand.usage program)
  | some path =>
    match CompileCommand.plan program path (← lookUp path) with
    | .fail messages => conclude 1 messages
    | .write messages result =>
      match ← writeResult result with
      | .error failure => conclude 1 (messages ++ failure.report)
      | .ok () => conclude 0 (messages ++ CompileCommand.success result)

end BasicCompiler.Command.CommandLine

/-- The program. -/
def main (arguments : List String) : IO UInt32 :=
  BasicCompiler.Command.CommandLine.compileSource arguments
