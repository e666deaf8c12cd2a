import BasicCompiler.Compiler.Session

/-!
# The compiler

`compile` turns the source of a BASIC program into the text of a C program, or into the first
diagnostic. It is one run of a session over the whole source: the preamble goes to the header, the
statements are compiled as they are read, the epilogue closes the body, and at the end every jump
has to have its label.
-/

namespace BasicCompiler

namespace Session

/-- The session with the lines in front of the declarations written. -/
def openProgram (session : Session) : Session :=
  { session with listing := Fragment.preamble.foldl Listing.writeHeaderLine session.listing }

/-- The session with the lines behind the statements written. -/
def closeProgram (session : Session) : Session :=
  { session with listing := Fragment.epilogue.foldl Listing.writeLine session.listing }

/-- Finish a program whose statements are all compiled. -/
def finish (session : Session) : Outcome :=
  match session.closeProgram.scope.unresolved? with
  | some diagnostic => .stopped diagnostic session.closeProgram
  | none => .done session.closeProgram

/-- Compile a program from the current token to the end of the input. -/
def compileProgram (session : Session) : Outcome :=
  (session.openProgram.run [.blankLines, .statements .program]).andThen finish

end Session

/-- The C program for a BASIC source, or what is wrong with the source. -/
def compile (source : String) : Except Diagnostic String :=
  match Session.start (.ofSource source) .empty with
  | .error diagnostic => .error diagnostic
  | .ok session =>
    match session.compileProgram with
    | .stopped diagnostic _ => .error diagnostic
    | .done session => .ok session.listing.text

end BasicCompiler
