import Watershed.Segmentation.Reading
import Watershed.Tool.Arguments
import Watershed.Tool.Path

/-!
# Carrying out a command

A command is turned into a plan: a directory that has to be there, and then either files to be
written into it or a failure. What the command reads is given by a function that tells what is found
at a path, so a plan is a plain value, and carrying it out decides nothing more.
-/

namespace Watershed.Tool

/-- What is found at a path. -/
inductive Found where
  | nothing
  | directory
  | file (text : String)

/-- A directory to make, and what happens once it is there. -/
structure Plan where
  directory : String
  outcome : Except Failure (List (String × Content))

namespace Command

/-- The text of a file, or the reason for which there is none. -/
def fileText (find : String → Found) (role : FileRole) (path : String) : Except Failure String :=
  match find path with
  | .nothing => .error (.missingFile role path)
  | .directory => .error (.notAFile role path)
  | .file text => .ok text

/-- The value that a file describes. -/
def describe {α : Type} (find : String → Found) (role : FileRole) (path : String)
    (read : String → Except Json.Fault α) : Except Failure α := do
  let text ← fileText find role path
  (read text).mapError fun _ => .unreadable role path

/-- The settings of a file, or the standard ones, with the choices on the command line applied. -/
def settings (find : String → Found) (overrides : Overrides) : Except Failure Settings := do
  let chosen ← match overrides.settingsPath with
    | none => pure Settings.standard
    | some path => describe find .settings path Settings.ofText
  return overrides.apply chosen

/-- The directory for the results of a synthetic scene. -/
def sceneDirectory : String := "synthetic"

/-- The plan for a command. -/
def plan (command : Command) (find : String → Found) : Except Failure Plan :=
  match command.task with
  | .synthetic scene => do
      scene.check
      let settings ← settings find command.overrides
      return {
        directory := Path.join command.directory sceneDirectory
        outcome := do (← SceneReport.ofScene scene settings).files }
  | .segment path => do
      let settings ← settings find command.overrides
      let problem ← describe find .problem path Problem.ofText
      let parts ← problem.parts
      return {
        directory := Path.join command.directory problem.name
        outcome := do (← SegmentReport.ofProblem problem parts settings).files }
  | .validEdges path => do
      let settings ← settings find command.overrides
      let problem ← describe find .problem path Problem.ofText
      let parts ← problem.parts
      return {
        directory := Path.join command.directory problem.name
        outcome := do return (← EdgeReport.ofProblem problem parts settings).files }

end Command

end Watershed.Tool
