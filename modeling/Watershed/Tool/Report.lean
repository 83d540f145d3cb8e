import Watershed.Partition.Numbering
import Watershed.Scene
import Watershed.Tool.Document
import Watershed.Tool.Picture
import Watershed.Tool.Problem

/-!
# Reports

The three results that the tool can produce, each as a value and as the files that show it: the
segmentation of a problem, the valid edges of a problem, and the segmentation of a synthetic scene.
-/

namespace Watershed.Tool

/-- What a file holds. -/
inductive Content where
  | document (value : Document)
  | picture (value : Picture)

/-- The segmentation of a problem. -/
structure SegmentReport where
  problem : Problem
  settings : Settings
  numbering : Numbering

namespace SegmentReport

/-- Segments a problem; the labels are numbered in the order of their first appearance. -/
def ofProblem (problem : Problem) (parts : Problem.Parts) (settings : Settings) :
    Except Failure SegmentReport := do
  let labels ← (Segmentation.seededLabels parts.weights parts.stencil settings
    parts.region).mapError (Failure.segmentation problem.name)
  return ⟨problem, settings, Numbering.ofLabels parts.region.isSome labels.data⟩

/-- The document about a segmentation that goes with its labels. -/
def summary (report : SegmentReport) : Document :=
  .record [
    ("case", .text report.problem.name),
    ("config", .settings report.settings),
    ("offsets", .offsets report.problem.offsets),
    ("num_attractive", .natural report.problem.attractive),
    ("num_segments", .natural report.numbering.count),
    ("masked", .boolean report.problem.region.isSome)]

/-- A picture of the labels, if the grid has two axes. -/
def pictures (report : SegmentReport) : Except Failure (List (String × Content)) :=
  match report.problem.shape with
  | [height, width] => do
      return [("labels.png", .picture (← Picture.ofLabels width height report.numbering.labels))]
  | _ => .ok []

/-- The files that show a segmentation, or the failure to draw it. -/
def files (report : SegmentReport) : Except Failure (List (String × Content)) := do
  return (← report.pictures) ++ [
    ("labels.json", .document (.labels report.problem.shape report.numbering.labels)),
    ("meta.json", .document report.summary)]

end SegmentReport

/-- The number of valid edges of a channel, and of all its edges. -/
structure ChannelCount where
  channel : Nat
  offset : Offset
  attractive : Bool
  valid : Nat
  total : Nat
  deriving DecidableEq

/-- The valid edges of a problem: their number in each channel, and the first ones in order. -/
structure EdgeReport where
  problem : Problem
  settings : Settings
  channels : List ChannelCount
  validCount : Nat
  topEdges : List Nat

namespace EdgeReport

/-- The number of edges that a report lists in order of priority. -/
def listed : Nat := 32

/-- The valid edges of a channel. -/
def channelCount (stencil : Stencil) (valid : Tensor Bool) (offset : Offset) (channel : Nat) :
    ChannelCount :=
  let marks := (valid.channel? channel).getD #[]
  ⟨channel, offset, stencil.isAttractive channel, marks.count true, marks.size⟩

/--
The counts of valid edges inside of the region of a problem, and the first edges in order of
priority among those that are valid without regard to the region.
-/
def ofProblem (problem : Problem) (parts : Problem.Parts) (settings : Settings) :
    Except Failure EdgeReport := do
  let generator := Generator.ofSeed settings.seed
  let excluded := parts.region.map Segmentation.outside
  let valid ← (EdgeMask.compute parts.weights.shape parts.stencil settings.thinning excluded
    generator).1.mapError Failure.edgeMask
  let channels := parts.stencil.offsets.zipIdx.map fun (offset, channel) =>
    channelCount parts.stencil valid offset channel
  let ranking ← (Segmentation.ranking parts.weights parts.stencil settings.thinning
    settings.invertRepulsive settings.bias generator).1.mapError Failure.ranking
  return ⟨problem, settings, channels, ranking.validCount, ranking.validOrder.take listed⟩

/-- The record of a channel. -/
def channelDocument (count : ChannelCount) : Document :=
  .record [
    ("channel", .natural count.channel),
    ("offset", .list (count.offset.map .integer)),
    ("attractive", .boolean count.attractive),
    ("valid", .natural count.valid),
    ("total", .natural count.total)]

/-- The record of the valid edges of a problem. -/
def document (report : EdgeReport) : Document :=
  .record [
    ("case", .text report.problem.name),
    ("config", .settings report.settings),
    ("channels", .list (report.channels.map channelDocument)),
    ("num_valid", .natural report.validCount),
    ("top_edges", .naturals report.topEdges)]

/-- The file that shows the valid edges of a problem. -/
def files (report : EdgeReport) : List (String × Content) :=
  [("valid_edges.json", .document report.document)]

end EdgeReport

/-- The size, the noise and the seed of a synthetic scene. -/
structure SceneOptions where
  width : Nat
  height : Nat
  blobs : Nat
  noise : Binary32
  seed : Nat
  deriving DecidableEq

namespace SceneOptions

/-- A scene needs cells and blobs. -/
def check (scene : SceneOptions) : Except Failure Unit :=
  if scene.width = 0 ∨ scene.height = 0 then .error (.emptyScene scene.width scene.height)
  else if scene.blobs = 0 then .error .noBlobs
  else .ok ()

end SceneOptions

/-- The segmentation of a synthetic scene. -/
structure SceneReport where
  scene : SceneOptions
  settings : Settings
  numbering : Numbering
  truth : Numbering

namespace SceneReport

/-- Makes a scene and segments it. -/
def ofScene (scene : SceneOptions) (settings : Settings) : Except Failure SceneReport := do
  let truth ← (Scene.blobLabels scene.width scene.height scene.blobs scene.seed).mapError
    Failure.sceneLabels
  let weights ← (Scene.noisyAffinities truth Scene.offsets scene.noise scene.seed).mapError
    Failure.sceneAffinities
  let labels ← (Segmentation.seededLabels weights Scene.stencil settings none).mapError
    Failure.sceneSegmentation
  return ⟨scene, settings, Numbering.ofLabels false labels.data,
    Numbering.ofLabels false truth.data⟩

/-- The document about a scene that goes with its labels. -/
def summary (report : SceneReport) : Document :=
  .record [
    ("width", .natural report.scene.width),
    ("height", .natural report.scene.height),
    ("blobs", .natural report.scene.blobs),
    ("noise", .single report.scene.noise),
    ("scene_seed", .natural report.scene.seed),
    ("config", .settings report.settings),
    ("offsets", .offsets Scene.offsets),
    ("num_segments", .natural report.numbering.count),
    ("truth_segments", .natural report.truth.count)]

/-- The files that show a scene and its segmentation, or the failure to draw them. -/
def files (report : SceneReport) : Except Failure (List (String × Content)) := do
  let width := report.scene.width
  let height := report.scene.height
  let found ← Picture.ofLabels width height report.numbering.labels
  let truth ← Picture.ofLabels width height report.truth.labels
  return [
    ("labels.png", .picture found),
    ("truth.png", .picture truth),
    ("labels.json", .document (.labels [height, width] report.numbering.labels)),
    ("meta.json", .document report.summary)]

end SceneReport

end Watershed.Tool
