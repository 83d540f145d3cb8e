import Watershed.Binary32
import Watershed.Grid.Tensor

/-!
# Edge weights

Before edges are ranked, their weights are brought to one scale: repulsive weights can be inverted,
so that a low affinity makes a strong repulsion, and a bias can be added to attractive weights, so
that the balance between joining and separating shifts.
-/

namespace Watershed.EdgeWeights

/-- A repulsive weight, inverted on request. -/
def repulsive (invert : Bool) (weight : Binary32) : Binary32 :=
  if invert then .one - weight else weight

/-- An attractive weight with a bias; a bias of zero changes nothing. -/
def attractive (bias weight : Binary32) : Binary32 :=
  if bias == .zero then weight else weight + bias

/-- The weights of the first channels as attractive ones, and the others as repulsive ones. -/
def transform (weights : Tensor Binary32) (channels : Nat) (invert : Bool) (bias : Binary32) :
    Except Error (Tensor Binary32) :=
  if channels ≤ weights.channelCount then
    let split := channels * weights.channelSize
    .ok (weights.mapIdx fun edge weight =>
      if edge < split then attractive bias weight else repulsive invert weight)
  else
    .error (.channelSplit channels weights.channelCount)

end Watershed.EdgeWeights
