/-!
# The C text of statements

The fixed shapes in which statements appear in the generated C program. Each value or function is
one piece of text; a piece that ends a line carries its line feed.
-/

namespace BasicCompiler.Fragment

/-- The lines in front of the declarations. -/
def preamble : List String :=
  ["#include <stdio.h>", "int main(void)\x7b"]

/-- The lines behind the statements. -/
def epilogue : List String :=
  ["return 0;", "\x7d"]

/-- The header line that declares a variable. -/
def declaration (name : String) : String :=
  "float " ++ name ++ ";"

/-- A binary operator between its operands. The spaces keep a sign apart from an operator. -/
def binary (operator : String) : String :=
  " " ++ operator ++ " "

/-- The statement that prints a fixed text. -/
def printText (text : String) : String :=
  "printf(\"" ++ text ++ "\\n\");\n"

/-- The beginning of the statement that prints a value. -/
def printOpen : String :=
  "printf(\"%.2f\\n\", (float)("

/-- The end of the statement that prints a value. -/
def printClose : String :=
  "));\n"

/-- The beginning of a conditional, up to its condition. -/
def ifOpen : String :=
  "if("

/-- The beginning of a loop, up to its condition. -/
def whileOpen : String :=
  "while("

/-- What stands between a condition and the statements it governs. -/
def blockOpen : String :=
  ")\x7b\n"

/-- The line behind the statements that a condition governs. -/
def blockClose : String :=
  "\x7d\n"

/-- The line of a label. -/
def label (name : String) : String :=
  name ++ ":\n"

/-- The line of a jump. -/
def jump (name : String) : String :=
  "goto " ++ name ++ ";\n"

/-- The beginning of an assignment, up to its value. -/
def assignOpen (name : String) : String :=
  name ++ " = "

/-- The end of an assignment. -/
def assignClose : String :=
  ";\n"

/-- The statement that reads a variable. A failed read sets it to zero and drops the word at which
reading failed. -/
def input (name : String) : String :=
  "if(0 == scanf(\"%f\", &" ++ name ++ ")) \x7b\n" ++ name ++ " = 0;\nscanf(\"%*s\");\n\x7d\n"

end BasicCompiler.Fragment
