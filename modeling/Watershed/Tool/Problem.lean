import Watershed.Json.Reader
import Watershed.Segmentation.Basic
import Watershed.Tool.Failure

/-!
# Segmentation problems in files

A file describes a segmentation problem by a JSON record: a name, the shape of the grid, the offsets
with the number of attractive ones, one weight per edge, and optionally the region to segment.
-/

namespace Watershed.Tool

/-- A segmentation problem as it is described. -/
structure Problem where
  name : String
  shape : List Nat
  offsets : List Offset
  attractive : Nat
  weights : Array Binary32
  region : Option (Array Bool)

namespace Problem

/-- A problem of which some fields may not have been read yet. -/
structure Draft where
  name : Option String
  shape : Option (List Nat)
  offsets : Option (List Offset)
  attractive : Option Nat
  weights : Option (Array Binary32)
  region : Option (Array Bool)

/-- The draft in which no field has been read. -/
def Draft.blank : Draft :=
  ⟨none, none, none, none, none, none⟩

/-- The problem of a draft in which at most the region is missing. -/
def Draft.complete (draft : Draft) : Json.Reader Problem := do
  return {
    name := ← Json.present draft.name
    shape := ← Json.present draft.shape
    offsets := ← Json.present draft.offsets
    attractive := ← Json.present draft.attractive
    weights := ← Json.present draft.weights
    region := draft.region }

/-- The fields of a description, in their order. -/
def fields : List (Json.Field Draft) := [
  ⟨"case", fun draft => do return { draft with name := some (← Json.text) }⟩,
  ⟨"shape", fun draft => do
    return { draft with shape := some (← Json.list Json.natural).toList }⟩,
  ⟨"offsets", fun draft => do
    let offsets ← Json.list (Json.list Json.integer)
    return { draft with offsets := some (offsets.toList.map (·.toList)) }⟩,
  ⟨"num_attractive", fun draft => do
    return { draft with attractive := some (← Json.natural) }⟩,
  ⟨"weights", fun draft => do
    return { draft with weights := some (← Json.list Json.single) }⟩,
  ⟨"valid_region", fun draft => do
    return { draft with region := ← Json.nullable (Json.list Json.boolean) }⟩]

/-- The problem that a text describes. -/
def ofText (text : String) : Except Json.Fault Problem :=
  Json.read (do (← Json.record fields Draft.blank).complete) text

/-- The parts of a segmentation problem, checked against each other. -/
structure Parts where
  stencil : Stencil
  weights : Tensor Binary32
  region : Option (Tensor Bool)

/-- The region of a problem over the shape of its grid. -/
def regionTensor (problem : Problem) : Except Error (Option (Tensor Bool)) :=
  match problem.region with
  | none => .ok none
  | some inside => some <$> Tensor.ofArray problem.shape inside

/-- The parts of a problem: the stencil, one weight per edge, and one mark per cell. -/
def parts (problem : Problem) : Except Failure Parts := do
  let stencil ← (Stencil.ofOffsets problem.offsets problem.attractive).mapError
    (Failure.stencil problem.name)
  let weights ← (Tensor.ofArray (stencil.edgeShape problem.shape) problem.weights).mapError
    (Failure.weights problem.name)
  let region ← problem.regionTensor.mapError (Failure.region problem.name)
  return ⟨stencil, weights, region⟩

end Problem

end Watershed.Tool
