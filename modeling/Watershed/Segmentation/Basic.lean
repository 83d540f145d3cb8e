import Watershed.Clustering.Divisive
import Watershed.Clustering.Greedy
import Watershed.Clustering.Growth
import Watershed.Edge.Mask
import Watershed.Edge.Ranking
import Watershed.Edge.Weights
import Watershed.Generator
import Watershed.Segmentation.Settings

/-!
# Segmentation of a grid

From edge weights to a label for every cell: the valid edges are marked, the weights are brought to
one scale, and the chosen algorithm clusters the cells. A region can restrict the segmentation:
cells outside of it are excluded and get the label zero, and the labels inside are one more than the
flat index of the cell that stands for the cluster.
-/

namespace Watershed.Segmentation

variable {γ : Type} [RandomSource γ]

/-- The cells outside of a region. -/
def outside (region : Tensor Bool) : Tensor Bool :=
  region.map not

/-- The ranking of all edges of a grid, without any region. -/
def ranking (weights : Tensor Binary32) (stencil : Stencil) (thinning : Option Thinning)
    (invert : Bool) (bias : Binary32) : Sampled γ Ranking := do
  let _ ← stencil.gridShape weights.shape
  let valid ← EdgeMask.compute weights.shape stencil thinning none
  let scaled ← EdgeWeights.transform weights stencil.attractive invert bias
  Ranking.ofWeights scaled valid

/-- The representative of every cell, by the chosen algorithm. -/
def cluster (algorithm : Algorithm) (scaled : Tensor Binary32) (valid : Tensor Bool)
    (stencil : Stencil) (gridShape : List Nat) : Except Error (Array Nat) :=
  match algorithm with
  | .kruskal => do
      let ranking ← Ranking.ofWeights scaled valid
      Greedy.cluster ranking.order ranking.valid stencil gridShape
  | .divisive => do
      let ranking ← Ranking.ofWeights scaled valid
      Divisive.cluster ranking.order ranking.valid stencil gridShape
  | .prim => Growth.cluster scaled.data valid.data stencil gridShape

/-- The label of a cell: zero outside of the region, and otherwise one more than before. -/
def regionLabel (region : Tensor Bool) (cell label : Nat) : Nat :=
  if region.data[cell]?.getD false then label + 1 else 0

/-- The labels of the cells of a grid, drawing random numbers from any source. -/
def labels (weights : Tensor Binary32) (stencil : Stencil) (settings : Settings)
    (region : Option (Tensor Bool)) : Sampled γ (Tensor Nat) := do
  let gridShape ← stencil.gridShape weights.shape
  let valid ← EdgeMask.compute weights.shape stencil settings.thinning (region.map outside)
  let scaled ← EdgeWeights.transform weights stencil.attractive settings.invertRepulsive
    settings.bias
  let representatives ← cluster settings.algorithm scaled valid stencil gridShape
  let labels ← Tensor.ofArray gridShape representatives
  match region with
  | none => return labels
  | some region => return labels.mapIdx (regionLabel region)

/-- The labels of the cells of a grid, with random numbers from the seed of the settings. -/
def seededLabels (weights : Tensor Binary32) (stencil : Stencil) (settings : Settings)
    (region : Option (Tensor Bool)) : Except Error (Tensor Nat) :=
  (labels weights stencil settings region (Generator.ofSeed settings.seed)).1

end Watershed.Segmentation
