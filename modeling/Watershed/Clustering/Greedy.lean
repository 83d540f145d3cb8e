import Watershed.Edge.Index
import Watershed.Partition.Basic

/-!
# Greedy clustering

The edges of a grid graph are taken in a given order of priority. An attractive edge joins the
classes of its ends unless these exclude each other, and a repulsive edge makes the classes of its
ends exclude each other. Invalid edges and edges without two ends are passed over. The label of a
node is the root of its class at the end.
-/

namespace Watershed.Greedy

/-- Takes the edge of a given number into account. -/
def step (index : EdgeIndex) (valid : Array Bool) (partition : Partition index.nodes)
    (edge : Nat) : Except Error (Partition index.nodes) :=
  match valid[edge]? with
  | none => .error .outOfBounds
  | some false => .ok partition
  | some true =>
      match index.ends? edge with
      | none => .ok partition
      | some (source, target) =>
          .ok (partition.addEdge source target (index.isRepulsive edge)).2

/-- The partition after a list of edges. -/
def run (index : EdgeIndex) (valid : Array Bool) (order : List Nat) :
    Except Error (Partition index.nodes) :=
  order.foldlM (step index valid) (Partition.discrete index.nodes)

/-- The labels that the edges of a grid give to its cells, taken in the given order. -/
def cluster (order : List Nat) (valid : Array Bool) (stencil : Stencil) (gridShape : List Nat) :
    Except Error (Array Nat) := do
  let index ← EdgeIndex.ofGrid stencil gridShape
  index.checkCount valid.size
  let partition ← run index valid order
  return partition.labels

end Watershed.Greedy
