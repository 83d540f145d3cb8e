import Watershed.Partition.DisjointSets
import Watershed.Partition.Exclusions

/-!
# Partitions under exclusion

The state of every clustering: a partition of the nodes into classes, and exclusions between the
roots of classes. Edges arrive one by one. An attractive edge joins the classes of its ends unless
they exclude each other; a repulsive edge makes them exclude each other. When two classes are
joined, the joint root takes over the exclusions of both.
-/

namespace Watershed

/-- What an edge did to a partition. -/
inductive Outcome where
  /-- Both ends were in one class already. -/
  | connected
  /-- The classes of the ends exclude each other. -/
  | excluded
  /-- The classes of the ends were joined. -/
  | joined
  /-- The classes of the ends exclude each other from now on. -/
  | separated
  deriving DecidableEq

/-- A partition of `n` nodes, with exclusions between its classes. -/
structure Partition (n : Nat) where
  classes : DisjointSets n
  exclusions : Exclusions n

namespace Partition

variable {n : Nat}

/-- Every node is a class of its own, and no classes exclude each other. -/
def discrete (n : Nat) : Partition n where
  classes := .discrete n
  exclusions := .empty n

/-- Every node is a class of its own, if there can be that many nodes. -/
def allocate (n : Nat) : Except Error (Partition n) :=
  return ⟨← DisjointSets.allocate n, .empty n⟩

/-- The root of a node, and the partition with the links shortened on the way. -/
def find (partition : Partition n) (x : Fin n) : Fin n × Partition n :=
  match partition with
  | ⟨classes, exclusions⟩ =>
      match classes.find x with
      | (root, classes) => (root, ⟨classes, exclusions⟩)

/-- Whether the classes of two roots exclude each other. -/
def excludes (partition : Partition n) (a b : Fin n) : Bool :=
  partition.exclusions.excludes a b

/-- The classes of two roots exclude each other from now on. -/
def separate (partition : Partition n) (a b : Fin n) : Partition n :=
  match partition with
  | ⟨classes, exclusions⟩ => ⟨classes, exclusions.insert a b⟩

/-- The classes of two roots are joined, and their exclusions with them. -/
def join (partition : Partition n) (a b : Fin n) : Partition n :=
  match partition with
  | ⟨classes, exclusions⟩ =>
      match classes.union a b with
      | (root, classes) => ⟨classes, exclusions.move (if root = a then b else a) root⟩

/-- Takes an edge into account. -/
def addEdge (partition : Partition n) (a b : Fin n) (repulsive : Bool) : Outcome × Partition n :=
  match partition.find a with
  | (rootA, partition) =>
      match partition.find b with
      | (rootB, partition) =>
          if rootA = rootB then (.connected, partition)
          else if partition.excludes rootA rootB then (.excluded, partition)
          else if repulsive then (.separated, partition.separate rootA rootB)
          else (.joined, partition.join rootA rootB)

/-- The root of every node. -/
def labels (partition : Partition n) : Array Nat :=
  partition.classes.labels.1.map (·.val)

end Partition

end Watershed
