/-!
# Working directories

What a command sees of the files: everything below the root, and the way from there to the working
directory. Paths are followed name by name, as far as every name on the way is a directory; a path
that begins with a slash is followed from the root and any other one from the working directory.
-/

namespace BasicCompiler.Command

/-- A file with its content, or a directory. -/
inductive Entry where
  | file (content : ByteArray)
  | directory

/-- The names on the way from a directory to an entry, as texts. -/
abbrev Route := List String

/-- The names on the way from the root to an entry. They can be any bytes. -/
abbrev Place := List ByteArray

/-- Places are compared name by name, and names byte by byte. -/
instance : DecidableEq Place :=
  @instDecidableEqList ByteArray ByteArray.instDecidableEq

/-- A working directory, and all that is around it: its own place, and what stands at each place. -/
structure Directory where
  home : Place
  lookup? : Place → Option Entry

/-- What a path leads to. -/
inductive Found where
  | missing
  | directory
  | file (content : ByteArray)

/-- Why a file cannot be read as text or written. -/
inductive Failure where
  /-- There is a directory in the place of the file. -/
  | isDirectory
  /-- The content is not text in UTF-8. -/
  | invalidText
deriving DecidableEq, Repr

/-- The largest number of bytes of a path. -/
def maxPathBytes : Nat :=
  4095

/-- The names in a path, empty ones included. -/
def pathNames : List Char → List (List Char)
  | [] => [[]]
  | c :: cs =>
    if c = '/' then [] :: pathNames cs
    else
      match pathNames cs with
      | [] => [[c]]
      | name :: names => (c :: name) :: names

namespace Directory

/-- A working directory with nothing in it. Nothing is known of what is around it, and its own name
is one that no path can hold, so that no path which leads out of it leads back. -/
def empty : Directory :=
  ⟨["/".toUTF8], fun _ => none⟩

/-- The place at the end of a route from the working directory. -/
def place (directory : Directory) (route : Route) : Place :=
  directory.home ++ route.map String.toUTF8

/-- The directory with `entry` at a place. -/
def set (directory : Directory) (place : Place) (entry : Entry) : Directory :=
  { directory with
    lookup? := fun other => if other = place then some entry else directory.lookup? other }

/-- The directory with directories in it all along the route. -/
def makeDirectories (directory : Directory) (route : Route) : Directory :=
  (List.range route.length).foldl
    (fun made count => made.set (directory.place (route.take (count + 1))) .directory) directory

/-- The directory with a file in it at the end of the route, and directories on the way. -/
def makeFile (directory : Directory) (route : Route) (content : ByteArray) : Directory :=
  (directory.makeDirectories route.dropLast).set (directory.place route) (.file content)

/-- Follow some names from the directory at a place. A name that is empty or a single point leads
nowhere else and two points lead up, at the root to the root itself. -/
def follow (directory : Directory) : Place → List String → Found
  | _, [] => .directory
  | place, name :: names =>
    if name = "" ∨ name = "." then directory.follow place names
    else if name = ".." then directory.follow place.dropLast names
    else
      match directory.lookup? (place ++ [name.toUTF8]) with
      | none => .missing
      | some .directory => directory.follow (place ++ [name.toUTF8]) names
      | some (.file content) => if names = [] then .file content else .missing

/-- What a path leads to. A path that begins with a slash begins at the root, and a path that is
empty or longer than `maxPathBytes` leads nowhere. -/
def find (directory : Directory) (path : String) : Found :=
  if path.utf8ByteSize > maxPathBytes then .missing
  else
    match path.toList with
    | [] => .missing
    | c :: cs =>
      directory.follow (if c = '/' then [] else directory.home)
        ((pathNames (c :: cs)).map String.ofList)

/-- Write a file in the working directory itself, which replaces a file of that name. -/
def writeFile (directory : Directory) (name : String) (content : ByteArray) :
    Except Failure Directory :=
  match directory.lookup? (directory.place [name]) with
  | some .directory => .error .isDirectory
  | _ => .ok (directory.set (directory.place [name]) (.file content))

/-- The content of a file in the working directory itself. -/
def content? (directory : Directory) (name : String) : Option ByteArray :=
  match directory.lookup? (directory.place [name]) with
  | some (.file content) => some content
  | _ => none

/-- Setting an entry does not move the working directory. -/
@[simp] theorem home_set (directory : Directory) (place : Place) (entry : Entry) :
    (directory.set place entry).home = directory.home :=
  rfl

/-- What was set at a place is found there. -/
@[simp] theorem lookup?_set_same (directory : Directory) (place : Place) (entry : Entry) :
    (directory.set place entry).lookup? place = some entry := by
  simp [set]

/-- Setting an entry leaves the others alone. -/
theorem lookup?_set_of_ne (directory : Directory) {place other : Place} (entry : Entry)
    (h : other ≠ place) : (directory.set place entry).lookup? other = directory.lookup? other := by
  simp [set, h]

end Directory

end BasicCompiler.Command
