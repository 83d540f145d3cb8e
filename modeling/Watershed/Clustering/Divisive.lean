import Watershed.Edge.Index
import Watershed.Partition.Basic

/-!
# Divisive clustering

The edges of a grid graph are taken in a given order of priority, and here every attractive edge
joins the classes of its ends. An edge whose ends exclude each other is a cut: it joins them for the
rest of the first pass only. The other joining edges form a forest, and the clusters are the trees
of this forest. The first pass ends early once a single class remains.
-/

namespace Watershed.Divisive

/-- The state of the first pass: the partition, the forest so far, and the number of classes. -/
structure Progress (n : Nat) where
  partition : Partition n
  forest : Array Bool
  classes : Nat

/-- Takes an edge with both ends into account. -/
def Progress.addEdge {n : Nat} (progress : Progress n) (edge : Nat) (source target : Fin n)
    (repulsive : Bool) : Progress n :=
  match progress with
  | ⟨partition, forest, classes⟩ =>
      match partition.find source with
      | (rootA, partition) =>
          match partition.find target with
          | (rootB, partition) =>
              if rootA = rootB then
                ⟨partition, forest, classes⟩
              else
                let cut := partition.excludes rootA rootB
                if repulsive then
                  ⟨if cut then partition else partition.separate rootA rootB, forest, classes⟩
                else
                  ⟨partition.join rootA rootB,
                    if cut then forest else forest.setIfInBounds edge true, classes - 1⟩

/-- Takes the edge of a given number into account. -/
def step (index : EdgeIndex) (valid : Array Bool) (progress : Progress index.nodes)
    (edge : Nat) : Except Error (Progress index.nodes) :=
  match valid[edge]? with
  | none => .error .outOfBounds
  | some false => .ok progress
  | some true =>
      match index.ends? edge with
      | none => .ok progress
      | some (source, target) =>
          .ok (progress.addEdge edge source target (index.isRepulsive edge))

/-- The state after a list of edges, or when a single class remains. -/
def run (index : EdgeIndex) (valid : Array Bool) :
    List Nat → Progress index.nodes → Except Error (Progress index.nodes)
  | [], progress => .ok progress
  | edge :: order, progress =>
      if progress.classes ≤ 1 then
        .ok progress
      else do
        let progress ← step index valid progress edge
        run index valid order progress

/-- No edge has been taken: every node is a class, and the forest is empty. -/
def start (index : EdgeIndex) : Progress index.nodes where
  partition := .discrete index.nodes
  forest := Array.replicate index.attractiveCount false
  classes := index.nodes

/-- Joins the ends of an edge of the forest. -/
def joinTree (index : EdgeIndex) (forest : Array Bool) (classes : DisjointSets index.nodes)
    (edge : Nat) : DisjointSets index.nodes :=
  if forest[edge]?.getD false then
    match index.ends? edge with
    | none => classes
    | some (source, target) => (classes.union source target).2
  else
    classes

/-- The classes whose trees are those of a forest, joined in ascending order of edge numbers. -/
def trees (index : EdgeIndex) (forest : Array Bool) : DisjointSets index.nodes :=
  (List.range forest.size).foldl (joinTree index forest) (DisjointSets.discrete index.nodes)

/-- The labels that the edges of a grid give to its cells, taken in the given order. -/
def cluster (order : List Nat) (valid : Array Bool) (stencil : Stencil) (gridShape : List Nat) :
    Except Error (Array Nat) := do
  let index ← EdgeIndex.ofGrid stencil gridShape
  index.checkCount valid.size
  let progress ← run index valid order (start index)
  return (trees index progress.forest).labels.1.map (·.val)

end Watershed.Divisive
