/-!
# Paths

A path is a text of names with slashes between them. It is resolved name by name, from the top if it
starts with a slash and from the working directory otherwise: empty names and single dots stay in
place, and double dots lead upwards. A path that is too long leads nowhere.

A directory is made together with the ones above it that are missing. This rule is stated for any
way of making a single directory, so that it holds for a tree of files as a value and for the file
system alike.
-/

namespace Watershed.Tool

/-- Why a single directory could not be made. -/
inductive Obstacle where
  /-- The directory above it is missing. -/
  | missing
  /-- Something else is there, or nothing can be there. -/
  | blocked

namespace Path

/-- No path has as many bytes as this. -/
def sizeLimit : Nat := 4096

/-- The path has too many bytes to lead anywhere. -/
def isTooLong (path : String) : Bool :=
  sizeLimit ≤ path.utf8ByteSize

/-- The path is resolved from the top. -/
def isAbsolute (path : String) : Bool :=
  path.toList.head? = some '/'

/-- The names between the slashes of a path, empty ones included. -/
def names (path : String) : List String :=
  (path.toList.splitOn '/').map String.ofList

/-- The names of a path that are not empty. -/
def properNames (path : String) : List String :=
  (names path).filter (· != "")

/-- The names of a path that are not empty, and no single dots behind the first of them. -/
def steps (path : String) : List String :=
  match properNames path with
  | [] => []
  | first :: rest => first :: rest.filter (· != ".")

/-- The nonempty beginnings of a list, from the shortest to the longest. -/
def beginnings (names : List String) : List (List String) :=
  (List.range names.length).map fun last => names.take (last + 1)

/-- The directories above the last one of a path, from the lowest upwards. -/
def above (path : String) : List String :=
  let top := if isAbsolute path then "/" else ""
  (beginnings (steps path).dropLast).reverse.map fun names => top ++ "/".intercalate names

/-- A path in a directory; an absolute path replaces the directory. -/
def join (directory path : String) : String :=
  if isAbsolute path then path
  else if directory.toList.getLast? = some '/' then directory ++ path
  else directory ++ "/" ++ path

variable {m : Type → Type} [Monad m] [MonadExceptOf Obstacle m]

/--
Makes the first of the given directories. If it cannot be made because the one above it is missing,
the directories behind it are made before it.
-/
def makeFirst (make : String → m Unit) : List String → m Unit
  | [] => pure ()
  | path :: above =>
      tryCatch (make path) fun
        | .missing => do
            makeFirst make above
            make path
        | .blocked => throw .blocked

/--
Makes the directory of a path, and those above it as far as they are missing. The directory itself
is made under the whole path, so a path that ends in a single dot names a directory that has to be
there once the ones above it have been made.
-/
def makeDirectory (make : String → m Unit) (path : String) : m Unit :=
  makeFirst make (path :: above path)

end Path

end Watershed.Tool
