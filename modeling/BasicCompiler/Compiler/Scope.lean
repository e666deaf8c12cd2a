import BasicCompiler.Diagnostic

/-!
# The names of a program

What the part of a program read so far says about names: the variables that have a value, the
labels that are declared, and the jumps, each label with the place of its first jump. Variables
and labels share no name space.
-/

namespace BasicCompiler

/-- The names met so far, each list in the order in which its members were met. -/
structure Scope where
  declared : List String
  labels : List String
  jumps : List (String × Location)
deriving DecidableEq, Repr

namespace Scope

/-- The scope of a program of which nothing has been read. -/
def empty : Scope :=
  ⟨[], [], []⟩

/-- Add a variable; a variable that is known already is not added again. -/
def declare (scope : Scope) (name : String) : Scope :=
  if name ∈ scope.declared then scope
  else { scope with declared := scope.declared ++ [name] }

/-- Add a label. -/
def mark (scope : Scope) (name : String) : Scope :=
  { scope with labels := scope.labels ++ [name] }

/-- Add a jump; of several jumps to one label the first one is kept. -/
def jump (scope : Scope) (name : String) (location : Location) : Scope :=
  if name ∈ scope.jumps.map Prod.fst then scope
  else { scope with jumps := scope.jumps ++ [(name, location)] }

/-- The earlier of two jumps; of two at one place, the first argument. -/
def earlier (a b : String × Location) : String × Location :=
  if b.2 < a.2 then b else a

/-- The earliest of some jumps. -/
def earliest? : List (String × Location) → Option (String × Location)
  | [] => none
  | jump :: jumps => some (jumps.foldl earlier jump)

/-- The jumps to labels that are declared nowhere. -/
def danglingJumps (scope : Scope) : List (String × Location) :=
  scope.jumps.filter fun jump => jump.1 ∉ scope.labels

/-- The diagnostic for a finished program: its earliest jump to a label declared nowhere. -/
def unresolved? (scope : Scope) : Option Diagnostic :=
  (earliest? scope.danglingJumps).map fun jump => .undeclaredLabel jump.1 jump.2

end Scope

end BasicCompiler
