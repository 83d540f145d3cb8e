import Watershed.Binary32.Rounding
import Watershed.Edge.Affinity
import Watershed.Generator
import Watershed.Grid.Stencil

/-!
# Synthetic scenes

A scene is a picture of blobs: centres are placed at random, and every cell gets the number of the
nearest centre. The affinities of the blobs, blurred by uniform noise, make a segmentation problem
whose solution is known.
-/

namespace Watershed.Scene

/-- Centres of blobs, placed one after another and appended to earlier ones. -/
def placeCenters (height width : Binary32) :
    Nat → Array (Binary32 × Binary32) → Generator → Array (Binary32 × Binary32)
  | 0, centers, _ => centers
  | count + 1, centers, generator =>
      match generator.nextBelow height with
      | (y, generator) =>
          match generator.nextBelow width with
          | (x, generator) => placeCenters height width count (centers.push (y, x)) generator

/-- The square of a distance along one axis. -/
def square (x : Binary32) : Binary32 :=
  x * x

/-- The number of the nearest centre, counted from one; the first of equally near ones. -/
def nearestCenter (centers : List ((Binary32 × Binary32) × Nat)) (y x : Binary32) : Nat :=
  (centers.foldl (fun best (center, position) =>
    let distance := square (y - center.1) + square (x - center.2)
    if distance.less best.1 then (distance, position + 1) else best) (Binary32.infinity, 0)).2

/-- The blob of every cell. -/
def blobLabels (width height blobs seed : Nat) : Except Error (Tensor Nat) :=
  if 0 < blobs ∧ (width = 0 ∨ height = 0) then
    .error .emptySide
  else do
    Storage.check blobs Storage.wordBytes
    Tensor.checkStorage [height, width] Storage.halfWordBytes
    let centers :=
      placeCenters (.ofNat height) (.ofNat width) blobs #[] (Generator.ofSeed seed)
    let numbered := centers.toList.zipIdx
    Tensor.generate [height, width] fun cell =>
      nearestCenter numbered (.ofNat (cell / width)) (.ofNat (cell % width))

/-- Noise terms, drawn one after another and appended to earlier ones. -/
def drawNoise (noise : Binary32) : Nat → Array Binary32 → Generator → Array Binary32
  | 0, terms, _ => terms
  | count + 1, terms, generator =>
      match generator.nextSigned with
      | (jitter, generator) => drawNoise noise count (terms.push (jitter * noise)) generator

/-- The affinities of labels with noise added, kept between zero and one. -/
def noisyAffinities (labels : Tensor Nat) (offsets : List Offset) (noise : Binary32)
    (seed : Nat) : Except Error (Tensor Binary32) := do
  let affinities ← Affinities.ofLabels labels offsets none
  let weights := affinities.weights
  let terms := drawNoise noise weights.size #[] (Generator.ofSeed (seed + 1))
  return weights.mapIdx fun edge weight =>
    (weight + terms[edge]?.getD .zero).clamp .zero .one

/-- The offsets of a scene: direct neighbours first, then cells at growing distances. -/
def offsets : List Offset :=
  [[-1, 0], [0, -1], [-3, 0], [0, -3], [-9, 0], [0, -9], [-9, -9], [9, -9]]

/-- The stencil of a scene: the edges to the direct neighbours attract. -/
def stencil : Stencil where
  offsets := offsets
  attractive := 2
  rank := 2
  nonempty := by decide
  uniform := by decide
  attractive_le := by decide

end Watershed.Scene
