import Watershed.Binary32
import Watershed.Error
import Watershed.Partition.Basic

/-!
# Clustering of an explicit graph

The greedy clustering of a graph whose edges are given one by one, attractive ones first and
repulsive ones after them. Edges are taken by descending priority, and edges of equal priority in
the order in which they are given.
-/

namespace Watershed.EdgeList

/-- An edge of an explicit graph, with the priority of its weight. -/
structure Edge (n : Nat) where
  source : Fin n
  target : Fin n
  repulsive : Bool
  priority : Nat

/-- The edge between two nodes, if both exist. -/
def Edge.between? {n : Nat} (repulsive : Bool) (ends : Nat × Nat) (weight : Binary32) :
    Option (Edge n) :=
  if inside : ends.1 < n ∧ ends.2 < n then
    some ⟨⟨ends.1, inside.1⟩, ⟨ends.2, inside.2⟩, repulsive, weight.priority⟩
  else
    none

/-- The edges between pairs of nodes, unless some node does not exist. -/
def edges? (n : Nat) (repulsive : Bool) (pairs : List (Nat × Nat)) (weights : List Binary32) :
    Option (List (Edge n)) :=
  (pairs.zip weights).mapM fun (ends, weight) => Edge.between? repulsive ends weight

/-- By descending priority; edges of equal priority keep their order. -/
def byPriority {n : Nat} (edges : List (Edge n)) : List (Edge n) :=
  edges.mergeSort fun left right => right.priority ≤ left.priority

/-- The edges of a graph on `n` nodes, in the order in which they are taken. -/
def order (n : Nat) (attractive : List (Nat × Nat)) (weights : List Binary32)
    (repulsive : List (Nat × Nat)) (repulsiveWeights : List Binary32) :
    Except Error (List (Edge n)) :=
  if weights.length ≠ attractive.length then
    .error (.sizeMismatch attractive.length weights.length)
  else if repulsiveWeights.length ≠ repulsive.length then
    .error (.sizeMismatch repulsive.length repulsiveWeights.length)
  else
    match edges? n false attractive weights, edges? n true repulsive repulsiveWeights with
    | some joining, some separating => .ok (byPriority (joining ++ separating))
    | _, _ => .error .outOfBounds

/-- The partition after a list of edges, each of which joins or separates two classes. -/
def run {n : Nat} (edges : List (Edge n)) : Partition n :=
  edges.foldl (fun partition edge =>
    (partition.addEdge edge.source edge.target edge.repulsive).2) (Partition.discrete n)

/-- The labels that attractive and repulsive edges give to `n` nodes. -/
def cluster (n : Nat) (attractive : List (Nat × Nat)) (weights : List Binary32)
    (repulsive : List (Nat × Nat)) (repulsiveWeights : List Binary32) :
    Except Error (Array Nat) := do
  return (run (← order n attractive weights repulsive repulsiveWeights)).labels

/-- There can be that many nodes; this is asked only for edges that can be put in order. -/
def checkStorage (n : Nat) (attractive : List (Nat × Nat)) (weights : List Binary32)
    (repulsive : List (Nat × Nat)) (repulsiveWeights : List Binary32) : Except Error Unit := do
  let _ ← order n attractive weights repulsive repulsiveWeights
  Storage.check n Storage.wordBytes

end Watershed.EdgeList
