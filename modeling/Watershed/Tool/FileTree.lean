import Watershed.Tool.Plan

/-!
# Trees of files

A tree of directories and files as a value, and what a command does to it. A location is the list of
names on the way down from the top.
-/

namespace Watershed.Tool

/-- The names on the way from the top to a directory or a file. -/
abbrev Location := List String

/-- What a file of the tree holds: a text that was there before, or a result. -/
inductive Stored where
  | text (value : String)
  | result (value : Content)

/-- What there is at a location. -/
inductive Entry where
  | directory
  | file (stored : Stored)

/-- Entries by location below the top, which is a directory, and a working directory. -/
structure FileTree where
  entries : List (Location × Entry)
  working : Location

namespace FileTree

/-- The tree of the working directory, the directories above it, and nothing else. -/
def empty (working : Location) : FileTree :=
  ⟨(Path.beginnings working).map fun location => (location, .directory), working⟩

variable (tree : FileTree)

/-- What there is at a location; at the top there is always a directory. -/
def entry? (location : Location) : Option Entry :=
  if location.isEmpty then some .directory else tree.entries.lookup location

/-- The tree with an entry at a location, in place of the one that may be there. -/
def insert (location : Location) (entry : Entry) : FileTree :=
  ⟨(location, entry) :: tree.entries.filter (·.1 != location), tree.working⟩

/-- Where a search came to an end. -/
inductive Search where
  /-- Something is there. -/
  | found (location : Location) (entry : Entry)
  /-- Some name on the way does not exist. -/
  | missing
  /-- Something on the way is not a directory, or the path is too long. -/
  | blocked

/-- Follows names from a location. -/
def walk (here : Location) : List String → Search
  | [] =>
      match tree.entry? here with
      | none => .missing
      | some entry => .found here entry
  | name :: names =>
      match tree.entry? here with
      | none => .missing
      | some (.file _) => .blocked
      | some .directory =>
          if name = "" ∨ name = "." then walk here names
          else if name = ".." then walk here.dropLast names
          else walk (here ++ [name]) names

/-- The location from which a path is resolved. -/
def start (path : String) : Location :=
  if Path.isAbsolute path then [] else tree.working

/-- Where a path leads. -/
def search (path : String) : Search :=
  if Path.isTooLong path then .blocked else tree.walk (tree.start path) (Path.names path)

/-- What a command finds at a path; of a result it does not see the content. -/
def find (path : String) : Found :=
  match tree.search path with
  | .found _ .directory => .directory
  | .found _ (.file (.text text)) => .file text
  | _ => .nothing

/-- A directory can have this name: it is short enough and holds no null character. -/
def isName (name : String) : Bool :=
  name.utf8ByteSize ≤ 255 && !name.toList.contains '\x00'

/-- There is a directory at a path. -/
def isDirectory (path : String) : Bool :=
  match tree.search path with
  | .found _ .directory => true
  | _ => false

/-- The location of the last directory of a path, if one can be made there. -/
def room (path : String) : Except Obstacle Location :=
  if Path.isTooLong path then
    .error .blocked
  else
    let names := Path.properNames path
    match names.getLast?, tree.walk (tree.start path) names.dropLast with
    | some name, .found above .directory =>
        if name = "." ∨ name = ".." ∨ !isName name then .error .blocked
        else if (tree.entry? (above ++ [name])).isSome then .error .blocked
        else .ok (above ++ [name])
    | some _, .missing => .error .missing
    | _, _ => .error .blocked

/-- Makes the last directory of a path unless it is there already. -/
def ensureDirectory (path : String) : StateT FileTree (Except Obstacle) Unit := fun tree =>
  match tree.room path with
  | .ok location => .ok ((), tree.insert location .directory)
  | .error obstacle => if tree.isDirectory path then .ok ((), tree) else .error obstacle

/-- The tree with a result in a file of a directory, if there can be such a file. -/
def write (directory name : String) (content : Content) : Except Failure FileTree := do
  let path := Path.join directory name
  let failure := match content with
    | .picture _ => Failure.picture path
    | .document _ => Failure.document path
  match content with
  | .picture picture => picture.checkSides path
  | .document _ => pure ()
  match tree.search directory with
  | .found location .directory =>
      match tree.entry? (location ++ [name]) with
      | some .directory => .error failure
      | _ =>
          if Path.isTooLong path then .error failure
          else .ok (tree.insert (location ++ [name]) (.file (.result content)))
  | _ => .error failure

/-- The tree with results in files of a directory, written one after another. -/
def writeAll (tree : FileTree) (directory : String) :
    List (String × Content) → Except Failure FileTree
  | [] => .ok tree
  | (name, content) :: files => do
      writeAll (← tree.write directory name content) directory files

/-- The tree after a command, or the reason for which the command has failed. -/
def run (command : Command) : Except Failure FileTree := do
  let plan ← command.plan tree.find
  let ((), made) ← (Path.makeDirectory ensureDirectory plan.directory tree).mapError
    fun _ => .directory plan.directory
  made.writeAll plan.directory (← plan.outcome)

/-- The tree with a text in a file and with the directories above it, if the file can be there. -/
def addText (path text : String) : FileTree :=
  match Path.makeFirst ensureDirectory (Path.above path) tree with
  | .error _ => tree
  | .ok ((), made) =>
      let names := Path.steps path
      match names.getLast?, made.walk (made.start path) names.dropLast with
      | some name, .found above .directory => made.insert (above ++ [name]) (.file (.text text))
      | _, _ => made

/-- The results in files below the working directory that did not exist in an earlier tree. -/
def added (before after : FileTree) : List (Location × Content) :=
  after.entries.filterMap fun (location, entry) =>
    match entry with
    | .file (.result content) =>
        if before.working.isPrefixOf location ∧ (before.entry? location).isNone then
          some (location.drop before.working.length, content)
        else
          none
    | _ => none

end FileTree

end Watershed.Tool
