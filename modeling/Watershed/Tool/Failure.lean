import Watershed.Error

/-!
# Failures of a command

What can go wrong while a command runs, and the sentence that reports it. A sentence leads from the
step that failed to its cause. Where the cause lies in the text of a file, in the file system or in
an image format, the sentence ends with a mark for that.
-/

namespace Watershed.Tool

/-- What a file that a command reads is needed for. -/
inductive FileRole where
  | settings
  | problem
  deriving DecidableEq

namespace FileRole

/-- The option that names the file. -/
def optionName : FileRole → String
  | settings => "config"
  | problem => "input"

/-- What a sentence calls the content of the file. -/
def subject : FileRole → String
  | settings => "config"
  | problem => "fixture"

end FileRole

/-- The reason for which a command stops. -/
inductive Failure where
  | missingFile (role : FileRole) (path : String)
  | notAFile (role : FileRole) (path : String)
  | unreadable (role : FileRole) (path : String)
  | stencil (problem : String) (cause : Error)
  | weights (problem : String) (cause : Error)
  | region (problem : String) (cause : Error)
  | segmentation (problem : String) (cause : Error)
  | edgeMask (cause : Error)
  | ranking (cause : Error)
  | emptyScene (width height : Nat)
  | noBlobs
  | sceneLabels (cause : Error)
  | sceneAffinities (cause : Error)
  | sceneSegmentation (cause : Error)
  | labelCount (count width height : Nat)
  | directory (path : String)
  | picture (path : String)
  | document (path : String)
  deriving DecidableEq

namespace Failure

/-- The sentence that reports a failure. -/
def message : Failure → String
  | missingFile role path => role.optionName ++ " file does not exist: " ++ path
  | notAFile role path => role.optionName ++ " path is not a file: " ++ path
  | unreadable role path =>
      "reading " ++ role.subject ++ " " ++ path ++ ": parsing json " ++ path ++ ": <json>"
  | stencil problem cause =>
      "invalid offsets in fixture '" ++ problem ++ "': " ++ cause.message
  | weights problem cause => "weights of fixture '" ++ problem ++ "': " ++ cause.message
  | region problem cause => "valid_region of fixture '" ++ problem ++ "': " ++ cause.message
  | segmentation problem cause => "segmenting fixture '" ++ problem ++ "': " ++ cause.message
  | edgeMask cause => "computing valid edges: " ++ cause.message
  | ranking cause => "computing priority order: " ++ cause.message
  | emptyScene width height => s!"synthetic scene must be non-empty, got {width}x{height}."
  | noBlobs => "synthetic scene needs at least one blob."
  | sceneLabels cause => "placing blobs: " ++ cause.message
  | sceneAffinities cause => "computing ground-truth affinities: " ++ cause.message
  | sceneSegmentation cause => "segmenting synthetic affinities: " ++ cause.message
  | labelCount count width height =>
      s!"label count {count} does not match image size {width}x{height}."
  | directory path => "creating output directory " ++ path ++ ": <io>"
  | picture path => "saving image " ++ path ++ ": <image>"
  | document path => "writing json " ++ path ++ ": <io>"

/-- The refusal that a failure comes from, if an operation on grids refused its input. -/
def cause? : Failure → Option Error
  | stencil _ cause => some cause
  | weights _ cause => some cause
  | region _ cause => some cause
  | segmentation _ cause => some cause
  | edgeMask cause => some cause
  | ranking cause => some cause
  | sceneLabels cause => some cause
  | sceneAffinities cause => some cause
  | sceneSegmentation cause => some cause
  | _ => none

end Failure

end Watershed.Tool
