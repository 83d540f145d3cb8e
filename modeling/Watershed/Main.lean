import Watershed.Tool.Plan
import Watershed.Tool.Png
import Watershed.Tool.Printing

/-!
# The command line tool

Reads the files that a command names, and carries out the plan for the command.
-/

namespace Watershed.Tool

/--
The path leads to a directory. Nothing can be made at the single dot behind it, and the reason for
that is that the dot is there already if and only if the path leads to a directory.
-/
def leadsToDirectory (path : String) : IO Bool := do
  try
    IO.FS.createDir (Path.join path ".")
    return false
  catch
    | .alreadyExists .. => return true
    | _ => return false

/-- What a path leads to; a file whose bytes are no text counts as an empty one. -/
def lookAt (path : String) : IO Found := do
  try
    let bytes ← IO.FS.readBinFile path
    return .file ((String.fromUTF8? bytes).getD "")
  catch _ => return if ← leadsToDirectory path then .directory else .nothing

/-- Makes a single directory, and tells what was in the way if it could not be made. -/
def attemptDirectory (path : String) : IO (Except Obstacle Unit) := do
  try
    IO.FS.createDir path
    return .ok ()
  catch
    | .noFileOrDirectory .. => return .error .missing
    | _ => return .error .blocked

/-- Makes a single directory unless it is there already. -/
def ensureDirectory (path : String) : ExceptT Obstacle IO Unit := ExceptT.mk do
  let attempt ← attemptDirectory path
  if ← leadsToDirectory path then return .ok () else return attempt

/-- The paths of the files that a command reads. -/
def Command.sources (command : Command) : List String :=
  let problem := match command.task with
    | .synthetic _ => []
    | .segment path => [path]
    | .validEdges path => [path]
  command.overrides.settingsPath.toList ++ problem

/-- The bytes of a file. -/
def Content.bytes : Content → ByteArray
  | .document value => (value.print 0).toUTF8
  | .picture value => ⟨(Png.encode value).toArray⟩

/-- Writes one file, and tells what went wrong if it could not be written. -/
def writeContent (path : String) (content : Content) : IO (Except Failure Unit) := do
  let failure := match content with
    | .picture _ => Failure.picture path
    | .document _ => Failure.document path
  let sides := match content with
    | .picture value => value.checkSides path
    | .document _ => .ok ()
  match sides with
  | .error failure => return .error failure
  | .ok () =>
      try
        IO.FS.writeBinFile path content.bytes
        return .ok ()
      catch _ => return .error failure

/-- Writes files one after another, up to the first one that fails. -/
def writeContents (directory : String) : List (String × Content) → IO (Except Failure Unit)
  | [] => return .ok ()
  | (name, content) :: files => do
      match ← writeContent (Path.join directory name) content with
      | .error failure => return .error failure
      | .ok () => writeContents directory files

/-- Carries out a plan. -/
def Plan.carryOut (plan : Plan) : IO (Except Failure Unit) := do
  match ← (Path.makeDirectory ensureDirectory plan.directory).run with
  | .error _ => return .error (.directory plan.directory)
  | .ok () =>
      match plan.outcome with
      | .error failure => return .error failure
      | .ok files => writeContents plan.directory files

/-- Carries out a command. -/
def Command.carryOut (command : Command) : IO (Except Failure Unit) := do
  let found ← command.sources.mapM fun path => return (path, ← lookAt path)
  match command.plan fun path => (found.lookup path).getD .nothing with
  | .error failure => return .error failure
  | .ok plan => plan.carryOut

end Watershed.Tool

/-- Carries out the command line; the answer is zero if nothing went wrong. -/
def main (words : List String) : IO UInt32 := do
  match Watershed.Tool.Command.ofWords? words with
  | none =>
      IO.eprintln "error: the command line is not understood"
      return 2
  | some command =>
      match ← command.carryOut with
      | .ok () => return 0
      | .error failure =>
          IO.eprintln ("Error: " ++ failure.message)
          return 1
