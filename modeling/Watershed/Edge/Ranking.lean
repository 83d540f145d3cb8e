import Watershed.Binary32
import Watershed.Grid.Tensor

/-!
# Ranking of edges

The order in which a clustering takes the edges: valid edges by descending priority of their
weights, edges of equal priority by ascending number, and after them all invalid edges by ascending
number.
-/

namespace Watershed

/-- All edges in order, the valid ones first. -/
structure Ranking where
  valid : Array Bool
  order : List Nat
  validCount : Nat
  deriving DecidableEq

namespace Ranking

/-- The valid edges, in order. -/
def validOrder (ranking : Ranking) : List Nat :=
  ranking.order.take ranking.validCount

/-- The priority of an edge; one that does not exist has the lowest. -/
def priority (priorities : Array Nat) (edge : Nat) : Nat :=
  priorities[edge]?.getD 0

/-- Edges by descending priority; edges of equal priority keep their order. -/
def byPriority (priorities : Array Nat) (edges : List Nat) : List Nat :=
  edges.mergeSort fun left right => priority priorities right ≤ priority priorities left

/-- The ranking of weighted edges. -/
def ofWeights (weights : Tensor Binary32) (valid : Tensor Bool) : Except Error Ranking :=
  if weights.shape = valid.shape then
    let edges := List.range weights.size
    let (kept, dropped) := edges.partition fun edge => valid.data[edge]?.getD false
    let ranked := byPriority (weights.data.map Binary32.priority) kept
    .ok ⟨valid.data, ranked ++ dropped, kept.length⟩
  else
    .error (.shapeMismatch weights.shape valid.shape)

end Ranking

end Watershed
