import Watershed.Binary32
import Watershed.Edge.Thinning
import Watershed.Segmentation.Algorithm

/-!
# Settings of a segmentation

What a user can choose about a segmentation, apart from the weights and the stencil.
-/

namespace Watershed

/-- The choices for a segmentation. -/
structure Settings where
  /-- One stride per axis to thin out repulsive edges, or nothing to keep them all. -/
  strides : Option (List Nat)
  /-- Thin out at random rather than by a sublattice. -/
  randomizeStrides : Bool
  /-- Repulsive weights are affinities, and a low one repels. -/
  invertRepulsive : Bool
  /-- Added to every attractive weight. -/
  bias : Binary32
  algorithm : Algorithm
  /-- Seeds the random numbers. -/
  seed : Nat
  deriving DecidableEq

namespace Settings

/-- The settings unless chosen otherwise. -/
def standard : Settings where
  strides := none
  randomizeStrides := false
  invertRepulsive := true
  bias := .zero
  algorithm := .kruskal
  seed := 0

/-- The thinning of repulsive edges that the settings ask for. -/
def thinning (settings : Settings) : Option Thinning :=
  settings.strides.map fun strides =>
    if settings.randomizeStrides then .random strides else .lattice strides

end Settings

end Watershed
